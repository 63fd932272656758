import VeaOS.Foundation.PointerTree

/-! Walks over the nodes of a stored tree: to the first node, to the next node
in order, and down to the place of a new node. A walk takes fuel; the tree in
the memory bounds how much it needs. -/
namespace VeaOS.Foundation
open Context
variable {ι β : Type*}

namespace Context

/-- The hole is reached by left children only. -/
def allLeft : Context ι β → Bool
  | .top => true
  | .frame .left _ _ _ outer => outer.allLeft
  | .frame .right _ _ _ _ => false

theorem before_of_allLeft {c : Context ι β} (leftmost : c.allLeft = true) : c.before = [] := by
  induction c with
  | top => rfl
  | frame s k d sib outer ih => cases s with
    | left => exact ih leftmost
    | right => simp [allLeft] at leftmost

theorem before_of_not_allLeft {c : Context ι β} (turned : c.allLeft = false) : c.before ≠ [] := by
  induction c with
  | top => simp [allLeft] at turned
  | frame s k d sib outer ih => cases s with
    | left => exact ih turned
    | right => simp [before]

/-- The place of a new node, below `t` in the context `c`. -/
def insertion (goesLeft : ι → Bool) : KeyTree ι β → Context ι β → Context ι β
  | .nil, c => c
  | .node l k d r, c =>
    if goesLeft k then insertion goesLeft l (.frame .left k d r c)
    else insertion goesLeft r (.frame .right k d l c)

theorem plug_insertion (goesLeft : ι → Bool) (t : KeyTree ι β) (c : Context ι β) :
    (insertion goesLeft t c).plug .nil = c.plug t := by
  induction t generalizing c with
  | nil => rfl
  | node l k d r left right =>
    simp only [insertion]
    split
    · exact left _
    · exact right _

theorem link_insertion (goesLeft : ι → Bool) {t : KeyTree ι β} {c : Context ι β}
    (above : ∀ k s, c.link = some (k, s) → (s = .left ↔ goesLeft k = true))
    (linked : (insertion goesLeft t c).link = some (k, s)) : s = .left ↔ goesLeft k = true := by
  induction t generalizing c with
  | nil => exact above k s linked
  | node l x d r left right =>
    simp only [insertion] at linked
    split at linked
    case isTrue goes => exact left (by simp [goes]) linked
    case isFalse stays => exact right (by simp [stays]) linked

theorem before_after_insertion (goesLeft : ι → Bool) (t : KeyTree ι β) :
    (insertion goesLeft t .top).before ++ (insertion goesLeft t .top).after = t.inorder := by
  have plugged := congrArg KeyTree.inorder (plug_insertion goesLeft t .top)
  rwa [inorder_plug, KeyTree.inorder, List.nil_append] at plugged

theorem insertion_separates (goesLeft : ι → Bool) {t : KeyTree ι β} {c : Context ι β}
    (ordered : t.inorder.Pairwise fun a b => goesLeft a = true → goesLeft b = true)
    (before : ∀ x ∈ c.before, goesLeft x = false) (after : ∀ x ∈ c.after, goesLeft x = true) :
    (∀ x ∈ (insertion goesLeft t c).before, goesLeft x = false) ∧
      ∀ x ∈ (insertion goesLeft t c).after, goesLeft x = true := by
  induction t generalizing c with
  | nil => exact ⟨before, after⟩
  | node l k d r left right =>
    simp only [KeyTree.inorder, List.pairwise_append, List.pairwise_cons, List.mem_cons] at ordered
    obtain ⟨orderedL, ⟨belowK, orderedR⟩, cross⟩ := ordered
    simp only [insertion]
    split
    case isTrue goes =>
      refine left orderedL before fun x member => ?_
      simp only [Context.after, List.mem_cons, List.mem_append] at member
      rcases member with rfl | inRight | outside
      · exact goes
      · exact belowK x inRight goes
      · exact after x outside
    case isFalse stays =>
      refine right orderedR (fun x member => ?_) after
      simp only [Context.before, List.mem_append, List.mem_cons, List.not_mem_nil, or_false] at member
      rcases member with outside | inLeft | rfl
      · exact before x outside
      · exact Bool.eq_false_iff.mpr fun goes => stays (cross x inLeft k (.inl rfl) goes)
      · exact Bool.eq_false_iff.mpr stays

end Context

namespace PointerTree

/-- The nodes that the child pointers lead to from the root. -/
inductive Reaches (T : PointerTree ι β) : ι → Prop where
  | root : T.root = some k → Reaches T k
  | child : Reaches T k → T.child s k = some x → Reaches T x

/-- The end of the path of left children that starts at a node. -/
def first (T : PointerTree ι β) : Nat → ι → Option ι
  | 0, _ => none
  | fuel + 1, node =>
    match T.child .left node with
    | none => some node
    | some next => T.first fuel next

section Walks
variable [DecidableEq ι]

/-- Goes up as long as the node is the right child of its parent. -/
def climb (T : PointerTree ι β) : Nat → ι → Option (Option ι)
  | 0, _ => none
  | fuel + 1, node =>
    match T.parent node with
    | none => some none
    | some p => if T.child .right p = some node then T.climb fuel p else some (some p)

def successor (T : PointerTree ι β) (fuel : Nat) (node : ι) : Option (Option ι) :=
  match T.child .right node with
  | some next => (T.first fuel next).map some
  | none => T.climb fuel node

end Walks

/-- The nodes met from `start` by going to the next node until there is none. -/
def enumerate (next : ι → Option (Option ι)) : Nat → Option ι → Option (List ι)
  | _, none => some []
  | 0, some _ => none
  | steps + 1, some node => do
      let following ← next node
      return node :: (← enumerate next steps following)

/-- Goes down from `current` to the place of a new node. The result is the link
where it hangs, and whether all the steps were to the left. -/
def descend (goesLeft : ι → Bool) (T : PointerTree ι β) :
    Nat → Option (ι × Side) → Bool → Option ι → Option (Option (ι × Side) × Bool)
  | _, link, leftmost, none => some (link, leftmost)
  | 0, _, _, some _ => none
  | fuel + 1, _, leftmost, some node =>
    if goesLeft node then descend goesLeft T fuel (some (node, .left)) leftmost (T.child .left node)
    else descend goesLeft T fuel (some (node, .right)) false (T.child .right node)

variable {T base : PointerTree ι β}

theorem Stored.reaches {t : KeyTree ι β} (stored : T.Stored up t)
    (rooted : ∀ k, t.root = some k → T.Reaches k) : ∀ k ∈ t.inorder, T.Reaches k := by
  induction t generalizing up with
  | nil => exact fun k member => nomatch member
  | node l k d r left right =>
    obtain ⟨onLeft, onRight, _, _, below, below'⟩ := stored
    have here : T.Reaches k := rooted k rfl
    intro x member
    simp only [KeyTree.inorder, List.mem_append, List.mem_cons] at member
    rcases member with inLeft | rfl | inRight
    · exact left below (fun y root => here.child (onLeft.trans root)) x inLeft
    · exact here
    · exact right below' (fun y root => here.child (onRight.trans root)) x inRight

theorem Focus.reaches_iff {t : KeyTree ι β} (focus : Focus base T .top t) :
    T.Reaches k ↔ k ∈ t.inorder := by
  constructor
  · intro reached
    induction reached with
    | root found => exact KeyTree.mem_inorder_of_root (focus.root_top ▸ found)
    | @child k s x _ found member =>
      obtain ⟨c, l, d, r, rfl⟩ := exists_of_mem member
      have here : Focus base T c (.node l k d r) := Focus.top_iff.mpr focus
      have near : T.child s k = (match s with | .left => l.root | .right => r.root) := by
        cases s
        · exact here.stored.1
        · exact here.stored.2.1
      rw [near] at found
      rw [mem_plug]
      right
      cases s
      · exact List.mem_append_left _ (KeyTree.mem_inorder_of_root found)
      · exact List.mem_append_right _ (List.mem_cons_of_mem _ (KeyTree.mem_inorder_of_root found))
  · exact focus.stored.reaches (fun k root => .root (focus.root_top.trans root)) k

theorem Stored.first {t : KeyTree ι β} (stored : T.Stored up t) (rooted : t.root = some k)
    (enough : t.size ≤ fuel) : ∃ m, T.first fuel k = some m ∧ t.inorder.head? = some m := by
  induction t generalizing up k fuel with
  | nil => simp at rooted
  | node l key d r left right =>
    obtain ⟨onLeft, _, _, _, below, _⟩ := stored
    simp only [KeyTree.root, Option.some.injEq] at rooted
    subst key
    simp only [KeyTree.size] at enough
    obtain ⟨fuel, rfl⟩ : ∃ rest, fuel = rest + 1 := ⟨fuel - 1, by omega⟩
    cases l with
    | nil => exact ⟨k, by simp [PointerTree.first, onLeft], by simp [KeyTree.inorder]⟩
    | node ll lk ld lr =>
      obtain ⟨m, found, head⟩ := left below rfl (show _ ≤ fuel by omega)
      refine ⟨m, by simpa [PointerTree.first, onLeft, KeyTree.root] using found, ?_⟩
      rw [KeyTree.inorder, List.head?_append, head, Option.some_or]

theorem Stored.descend {t : KeyTree ι β} {c : Context ι β} (goesLeft : ι → Bool)
    (stored : T.Stored up t) (enough : t.size ≤ fuel) :
    T.descend goesLeft fuel c.link c.allLeft t.root =
      some ((c.insertion goesLeft t).link, (c.insertion goesLeft t).allLeft) := by
  induction t generalizing up fuel c with
  | nil => cases fuel <;> rfl
  | node l k d r left right =>
    obtain ⟨onLeft, onRight, _, _, below, below'⟩ := stored
    simp only [KeyTree.size] at enough
    obtain ⟨fuel, rfl⟩ : ∃ rest, fuel = rest + 1 := ⟨fuel - 1, by omega⟩
    simp only [KeyTree.root, PointerTree.descend, insertion, onLeft, onRight]
    split
    · exact left (c := .frame .left k d r c) below (by omega)
    · exact right (c := .frame .right k d l c) below' (by omega)

section Walks
variable [DecidableEq ι]

theorem Focus.climb {t : KeyTree ι β} (focus : Focus base T c t) (rooted : t.root = some k)
    (enough : c.depth < fuel) : T.climb fuel k = some c.after.head? := by
  induction c generalizing t k fuel with
  | top =>
    obtain ⟨fuel, rfl⟩ : ∃ rest, fuel = rest + 1 := ⟨fuel - 1, by omega⟩
    have above := focus.stored.parent_root rooted
    rw [parent_top] at above
    simp [PointerTree.climb, above, after]
  | frame s p d sib outer ih =>
    simp only [depth] at enough
    obtain ⟨fuel, rfl⟩ : ∃ rest, fuel = rest + 1 := ⟨fuel - 1, by omega⟩
    have above := focus.stored.parent_root rooted
    rw [parent_frame] at above
    have up := Focus.join_iff.mp focus
    cases s with
    | left =>
      have far := up.child_far
      have apart : sib.root ≠ some k := fun same => focus.parts.2.2 k
        (KeyTree.mem_inorder_of_root rooted) (by simp [keys, KeyTree.mem_inorder_of_root same])
      rw [Side.opp_left] at far
      simp [PointerTree.climb, above, far, apart, after]
    | right =>
      have near := up.child_near
      rw [rooted] at near
      simp only [PointerTree.climb, above, near, if_true, after]
      exact ih up (KeyTree.root_join ..) (by omega)

theorem Focus.successor {l r : KeyTree ι β} (focus : Focus base T c (.node l k d r))
    (enough : (c.plug (.node l k d r)).size ≤ fuel) :
    T.successor fuel k = some (r.inorder ++ c.after).head? := by
  have sizes : r.size ≤ fuel ∧ c.depth < fuel := by
    have depth := c.depth_le_length
    rw [← KeyTree.length_inorder, inorder_plug] at enough
    have keys : c.keys.length = c.before.length + c.after.length := c.length_keys
    simp only [KeyTree.inorder, List.length_append, List.length_cons, KeyTree.length_inorder] at enough
    omega
  have right := focus.child_far (s := .left)
  rw [Side.opp_left] at right
  cases r with
  | nil =>
    simp only [PointerTree.successor, right, KeyTree.root_nil, KeyTree.inorder, List.nil_append]
    exact focus.climb rfl sizes.2
  | node rl rk rd rr =>
    obtain ⟨m, found, head⟩ := focus.stored.2.2.2.2.2.first rfl sizes.1
    simp only [PointerTree.successor, right, KeyTree.root, found, Option.map_some, List.head?_append,
      head, Option.some_or]

theorem Focus.successor_inorder {t : KeyTree ι β} (focus : Focus base T .top t)
    (order : t.inorder = done ++ k :: rest) (enough : t.size ≤ fuel) :
    T.successor fuel k = some rest.head? := by
  obtain ⟨c, l, d, r, rfl⟩ := exists_of_mem (t := t) (k := k) (by simp [order])
  have here : Focus base T c (.node l k d r) := Focus.top_iff.mpr focus
  have distinct : (done ++ k :: rest).Nodup := order ▸ focus.distinct
  have keyed : k ∉ done ∧ k ∉ rest := by
    simp only [List.nodup_append, List.nodup_cons, List.mem_cons, ne_eq] at distinct
    exact ⟨fun member => distinct.2.2 k member k (.inl rfl) rfl, distinct.2.1.1⟩
  have split := order
  rw [inorder_plug, KeyTree.inorder, List.append_assoc, ← List.append_assoc, List.cons_append]
    at split
  obtain ⟨-, -, after⟩ := (List.append_cons_inj_of_notMem keyed.1 keyed.2).mp split.symm
  rw [after]
  exact here.successor enough

theorem Focus.enumerate {t : KeyTree ι β} (focus : Focus base T .top t) (enough : t.size ≤ fuel)
    (steps : t.size ≤ count) :
    PointerTree.enumerate (T.successor fuel) count t.inorder.head? = some t.inorder := by
  suffices general : ∀ rest done count, t.inorder = done ++ rest → rest.length ≤ count →
      PointerTree.enumerate (T.successor fuel) count rest.head? = some rest from
    general t.inorder [] count rfl (by rwa [KeyTree.length_inorder])
  intro rest
  induction rest with
  | nil =>
    intro done count _ _
    cases count <;> rfl
  | cons k rest ih =>
    intro done count whole bound
    obtain ⟨count, rfl⟩ : ∃ less, count = less + 1 := ⟨count - 1, by simp at bound; omega⟩
    have next := focus.successor_inorder whole enough
    have follows := ih (done ++ [k]) count (by simp [whole]) (by simpa using bound)
    simp [PointerTree.enumerate, next, follows]

end Walks
end PointerTree
end VeaOS.Foundation
