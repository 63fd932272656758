import VeaOS.Foundation.PointerSearch
import Mathlib.Data.List.Perm.Basic

/-! What the two balanced trees of the runtime library share: the cached first
node, the order that the comparison callback gives, and runs of insertions and
deletions. -/
namespace VeaOS.Rtl
open Foundation PointerTree
variable {ι β : Type*}

section Leftmost
variable [DecidableEq ι]

/-- The cached first node is moved on when it is about to be deleted. -/
def uncacheLeftmost (fuel : Nat) (T : PointerTree ι β) (node : ι) : Option (PointerTree ι β) :=
  if T.leftmost = some node then
    match T.child .right node with
    | some next => (T.first fuel next).map fun first => T.setLeftmost (some first)
    | none => some (T.setLeftmost (T.parent node))
  else some T

omit [DecidableEq ι] in
theorem head_after {c : Context ι β} (first : c.before = []) : c.after.head? = c.parent := by
  cases c with
  | top => rfl
  | frame s k d sib outer => cases s with
    | left => rfl
    | right => simp [Context.before] at first

theorem erase_plug {c : Context ι β} {l r : KeyTree ι β}
    (distinct : (c.plug (.node l k d r)).Distinct) :
    (c.plug (.node l k d r)).inorder.erase k = c.before ++ (l.inorder ++ (r.inorder ++ c.after)) := by
  have whole : (c.plug (.node l k d r)).inorder =
      (c.before ++ l.inorder) ++ k :: (r.inorder ++ c.after) := by
    rw [Context.inorder_plug, KeyTree.inorder]
    simp
  rw [KeyTree.Distinct, whole, List.nodup_append] at distinct
  rw [whole, List.erase_append_right _ fun member => distinct.2.2 k member k (by simp) rfl,
    List.erase_cons_head, List.append_assoc]

theorem erase_promote {c D : Context ι β} {l sr : KeyTree ι β} (first : D.before = []) (e' : β)
    (distinct : (c.plug (.node l k d (D.plug (.node .nil m e sr)))).Distinct) :
    (c.plug (.node l m e' (D.plug sr))).inorder =
      (c.plug (.node l k d (D.plug (.node .nil m e sr)))).inorder.erase k := by
  rw [erase_plug distinct]
  simp [Context.inorder_plug, KeyTree.inorder, first]

/-- What a deletion reads when the node `k` has two children and the successor
`m`, and which of the nodes it writes are known to be different. -/
structure Succession (T : PointerTree ι β) (c D : Context ι β) (l sr : KeyTree ι β) (k m : ι) (e : β)
    (fuel : Nat) : Prop where
  onLeft : T.child .left k = l.root
  found : ∃ r, T.child .right k = some r ∧ T.first fuel r = some m
  above : T.parent k = c.parent
  aboveSuccessor : T.parent m = D.parent.or (some k)
  successorRight : T.child .right m = sr.root
  data : T.balance m = e
  storedLeft : T.Stored (some k) l
  storedSuccessor : T.Stored (some m) sr
  other : k ≠ m
  notLeft : l.root ≠ some m
  notRight : (D.plug sr).root ≠ some m
  notBelow : sr.root ≠ some m
  notAbove : c.parent ≠ some m
  notLinked : ∀ s, c.link ≠ some (m, s)
  keyNotLinked : ∀ s, c.link ≠ some (k, s)
  keyNotRight : (D.plug sr).root ≠ some k
  keyNotBelow : sr.root ≠ some k
  linked : ∀ p s, D.link = some (p, s) → T.child s p = some m
  notBetween : ∀ p, D.parent = some p → p ≠ k ∧ p ≠ m ∧ c.parent ≠ some p
  distinct : (c.plug (.node l m e (D.plug sr))).Distinct

theorem succession {T : PointerTree ι β} {c D : Context ι β} {l sr : KeyTree ι β}
    (focus : Focus base T c (.node l k d (D.plug (.node .nil m e sr)))) (first : D.before = [])
    (enough : (D.plug (.node .nil m e sr)).size ≤ fuel) : Succession T c D l sr k m e fuel := by
  obtain ⟨inside, _, outside⟩ := focus.parts
  obtain ⟨_, distinctR, kNotL, kNotR, apart⟩ := KeyTree.distinct_node.mp inside
  obtain ⟨distinctM, _, notD⟩ := Context.distinct_plug.mp distinctR
  have notSr := (KeyTree.distinct_node.mp distinctM).2.2.2.1
  have inR : m ∈ (D.plug (.node .nil m e sr)).inorder := by simp [Context.mem_plug, KeyTree.inorder]
  have mNotD : m ∉ D.keys := notD m (by simp [KeyTree.inorder])
  have right : Focus base T (.frame .right k d l c) (D.plug (.node .nil m e sr)) :=
    Focus.join_iff.mpr focus
  have here := Focus.plug_iff.mpr right
  obtain ⟨r, rooted⟩ : ∃ r, (D.plug (.node .nil m e sr)).root = some r := by
    cases D with
    | top => exact ⟨m, rfl⟩
    | frame s p d sib outer => exact Context.exists_root_plug
  obtain ⟨m', found, head⟩ := right.stored.first rooted enough
  obtain rfl : m = m' := by simpa [Context.inorder_plug, first, KeyTree.inorder] using head
  refine ⟨focus.child_near (s := .left), ⟨r, (focus.child_far (s := .left)).trans rooted, found⟩,
    focus.parent (s := .left), ?_, here.child_far (s := .left), here.balance (s := .left),
    focus.stored.2.2.2.2.1, here.stored.2.2.2.2.2, fun same => kNotR (same ▸ inR),
    fun rooted => apart m (KeyTree.mem_inorder_of_root rooted) inR, fun rooted => ?_,
    fun rooted => notSr (KeyTree.mem_inorder_of_root rooted),
    fun above => outside m (by simp [KeyTree.inorder, inR]) (Context.parent_mem_keys above),
    fun s linked => outside m (by simp [KeyTree.inorder, inR]) (Context.link_mem_keys linked),
    fun s linked => outside k (by simp [KeyTree.inorder]) (Context.link_mem_keys linked),
    fun rooted => kNotR ?_, fun rooted => kNotR ?_, fun p s linked => ?_,
    fun p above => ⟨fun same => kNotR ?_, fun same => mNotD (same ▸ Context.parent_mem_keys above),
      fun same => outside p ?_ (Context.parent_mem_keys same)⟩, ?_⟩
  · rw [here.parent (s := .left)]
    cases D <;> rfl
  · rcases Context.mem_plug.mp (KeyTree.mem_inorder_of_root rooted) with inD | inSr
    · exact mNotD inD
    · exact notSr inSr
  · exact Context.mem_plug.mpr <| (Context.mem_plug.mp (KeyTree.mem_inorder_of_root rooted)).imp_right
      fun inSr => by simp [KeyTree.inorder, inSr]
  · exact Context.mem_plug.mpr (.inr (by simp [KeyTree.inorder, KeyTree.mem_inorder_of_root rooted]))
  · cases D with
    | top => simp at linked
    | frame side q data sib rest =>
      simp only [Context.link_frame, Option.some.injEq, Prod.mk.injEq] at linked
      obtain ⟨rfl, rfl⟩ := linked
      exact (Focus.join_iff.mp here).child_near
  · exact Context.mem_plug.mpr (.inl (same ▸ Context.parent_mem_keys above))
  · simp [KeyTree.inorder, Context.mem_plug, Context.parent_mem_keys above]
  · rw [KeyTree.Distinct, erase_promote first e focus.distinct]
    exact List.Nodup.erase k focus.distinct

/-- The memory in which the successor `m` stands in the place of `k`, whatever
the order of the writes that led to it. -/
structure Promoted (T T' : PointerTree ι β) (c D : Context ι β) (l sr : KeyTree ι β) (m : ι) (e' : β) :
    Prop where
  data : T'.balance m = e'
  onLeft : T'.child .left m = l.root
  onRight : T'.child .right m = (D.plug sr).root
  above : T'.parent m = c.parent
  children : ∀ z ≠ m, ∀ s, T'.child s z =
    if c.link = some (z, s) then some m else if D.link = some (z, s) then sr.root else T.child s z
  parents : ∀ z ≠ m, T'.parent z =
    if l.root = some z ∨ (D.plug sr).root = some z then some m
    else if sr.root = some z then D.parent else T.parent z
  balances : ∀ z ≠ m, T'.balance z = T.balance z
  root : T'.root = if c.link = none then some m else T.root

theorem Promoted.focus {T T' : PointerTree ι β} {c D : Context ι β} {l sr : KeyTree ι β}
    (promoted : Promoted T T' c D l sr m e') (known : Succession T c D l sr k m e fuel)
    (focus : Focus base T c (.node l k d (D.plug (.node .nil m e sr)))) :
    Focus T' T' (D.append (.frame .right m e' l c)) sr := by
  obtain ⟨data, onLeft, onRight, above, children, parents, balances, root⟩ := promoted
  have distinct : (c.plug (.node l m e' (D.plug sr))).Distinct := by
    have same : (c.plug (.node l m e' (D.plug sr))).inorder =
        (c.plug (.node l m e (D.plug sr))).inorder := Context.inorder_plug_congr rfl
    rw [KeyTree.Distinct, same]
    exact known.distinct
  refine Focus.plug_iff.mpr ((Focus.join_iff (s := .right)).mpr ?_)
  cases D with
  | top =>
    refine assemble known.storedLeft known.storedSuccessor focus.around distinct onLeft onRight above
      data (fun z other => ?_) (fun z other s => ?_) balances ?_
    · rw [parents z other]
      by_cases below : l.root = some z ∨ sr.root = some z
      · simp [Context.plug, below]
      · simp [Context.plug, not_or.mp below]
    · rw [children z other s, hang_child]
      rfl
    · rw [root, hang_root]
  | frame s p q sib rest =>
    have right : Focus base T (.frame .right k d l c)
        ((Context.frame s p q sib rest).plug (.node .nil m e sr)) := Focus.join_iff.mpr focus
    have whole : Focus T _ c (.node l k d ((Context.frame s p q sib rest).plug sr)) :=
      Focus.join_iff.mp (Focus.plug_iff.mp ((Focus.plug_iff.mpr right).detach (s := .right)))
    have pm := (known.notBetween p rfl).2.1
    refine assemble whole.stored.2.2.2.2.1 whole.stored.2.2.2.2.2 whole.around distinct onLeft onRight
      above data (fun z other => ?_) (fun z other s => ?_) (fun z other => ?_) ?_
    · rw [parents z other]
      simp [Context.append]
    · rw [children z other s]
      simp [Context.append]
    · rw [balances z other]
      simp
    · rw [root]
      simp [Context.append]

theorem Promoted.confined {T T' : PointerTree ι β} {c D : Context ι β} {l sr : KeyTree ι β}
    (promoted : Promoted T T' c D l sr m e')
    (absent : z ∉ (c.plug (.node l k d (D.plug (.node .nil m e sr)))).inorder) : Same T T' z := by
  obtain ⟨_, _, _, _, children, parents, balances, _⟩ := promoted
  simp only [Context.mem_plug, KeyTree.inorder, List.mem_append, List.mem_cons, List.nil_append,
    not_or] at absent
  obtain ⟨notC, notL, _, notD, other, notSr⟩ := absent
  refine ⟨fun s => ?_, ?_, balances z other⟩
  · rw [children z other, if_neg fun linked => notC (Context.link_mem_keys linked),
      if_neg fun linked => notD (Context.link_mem_keys linked)]
  · rw [parents z other, if_neg, if_neg fun rooted => notSr (KeyTree.mem_inorder_of_root rooted)]
    rintro (rooted | rooted)
    · exact notL (KeyTree.mem_inorder_of_root rooted)
    · rcases Context.mem_plug.mp (KeyTree.mem_inorder_of_root rooted) with inD | inSr
      · exact notD inD
      · exact notSr inSr

theorem uncacheLeftmost_spec {T : PointerTree ι β} {c : Context ι β} {l r : KeyTree ι β}
    (focus : Focus base T c (.node l k d r))
    (cached : T.leftmost = (c.plug (.node l k d r)).inorder.head?)
    (enough : (c.plug (.node l k d r)).size ≤ fuel) :
    uncacheLeftmost fuel T k =
      some (T.setLeftmost ((c.plug (.node l k d r)).inorder.erase k).head?) := by
  rw [erase_plug focus.distinct]
  have whole : (c.plug (.node l k d r)).inorder =
      (c.before ++ l.inorder) ++ k :: (r.inorder ++ c.after) := by
    rw [Context.inorder_plug, KeyTree.inorder]
    simp
  by_cases first : c.before ++ l.inorder = []
  · obtain ⟨before, bottom⟩ := List.append_eq_nil_iff.mp first
    rw [whole, first, List.nil_append, List.head?_cons] at cached
    rw [before, bottom, List.nil_append, List.nil_append]
    have right := focus.child_far (s := .left)
    rw [Side.opp_left] at right
    cases r with
    | nil =>
      simp only [uncacheLeftmost, cached, if_true, right, KeyTree.root_nil, KeyTree.inorder,
        List.nil_append, head_after before, focus.parent (s := .left)]
    | node rl rk rd rr =>
      have size : (KeyTree.node rl rk rd rr).size ≤ fuel := by
        rw [← KeyTree.length_inorder, whole] at enough
        simp only [List.length_append, List.length_cons, KeyTree.length_inorder] at enough
        omega
      obtain ⟨m, found, head⟩ := focus.stored.2.2.2.2.2.first rfl size
      simp only [uncacheLeftmost, cached, if_true, right, KeyTree.root, found, Option.map_some,
        List.head?_append, head, Option.some_or]
  · obtain ⟨x, rest, start⟩ := List.exists_cons_of_ne_nil first
    have other : x ≠ k := by
      intro same
      have distinct := focus.distinct
      rw [KeyTree.Distinct, whole, start, same] at distinct
      simp at distinct
    rw [whole, start, List.cons_append, List.head?_cons] at cached
    rw [← List.append_assoc, start, List.cons_append, List.head?_cons, ← cached, uncacheLeftmost,
      if_neg (by rw [cached]; simpa using other)]
    rfl

end Leftmost

/-- The comparison callback orders the nodes, as a total preorder. -/
structure TotalPreorder (compare : ι → ι → Int) : Prop where
  flip (a b) : compare a b < 0 ↔ 0 < compare b a
  trans (a b c) : compare a b ≤ 0 → compare b c ≤ 0 → compare a c ≤ 0

/-- The sequence is sorted, and nodes that compare equal stand in the order of
`live`, the nodes present in the order of their insertion. -/
def InOrder (compare : ι → ι → Int) (live nodes : List ι) : Prop :=
  nodes.Pairwise fun a b => compare a b < 0 ∨ compare a b = 0 ∧ [a, b].Sublist live

theorem InOrder.goesLeft {compare : ι → ι → Int} (order : TotalPreorder compare)
    (sorted : InOrder compare live nodes) (new : ι) :
    nodes.Pairwise fun a b => decide (compare new a < 0) = true → decide (compare new b < 0) = true := by
  refine sorted.imp fun {a b} ordered => ?_
  simp only [decide_eq_true_eq]
  intro before
  have after := (order.flip new a).mp before
  by_contra notBefore
  have back : compare b new ≤ 0 := by
    by_contra positive
    exact notBefore ((order.flip new b).mpr (by omega))
  have := order.trans a b new (by omega) back
  omega

theorem InOrder.insert {compare : ι → ι → Int} (order : TotalPreorder compare)
    (sorted : InOrder compare live (before ++ after)) (members : (before ++ after).Perm live)
    (notBefore : ∀ x ∈ before, decide (compare new x < 0) = false)
    (inFront : ∀ x ∈ after, decide (compare new x < 0) = true) :
    InOrder compare (live ++ [new]) (before ++ new :: after) := by
  have grown : (before ++ after).Pairwise fun a b =>
      compare a b < 0 ∨ compare a b = 0 ∧ [a, b].Sublist (live ++ [new]) :=
    sorted.imp fun {a b} ordered => ordered.imp_right fun tie =>
      ⟨tie.1, tie.2.trans (List.sublist_append_left _ _)⟩
  obtain ⟨inBefore, inAfter, cross⟩ := List.pairwise_append.mp grown
  refine List.pairwise_append.mpr ⟨inBefore, List.pairwise_cons.mpr ⟨fun x member => ?_, inAfter⟩, ?_⟩
  · exact .inl (by simpa using inFront x member)
  · intro x member y later
    rcases List.mem_cons.mp later with rfl | later
    · have notLess : ¬ compare y x < 0 := by simpa using notBefore x member
      have present : [x].Sublist live :=
        List.singleton_sublist.mpr (members.mem_iff.mp (List.mem_append_left _ member))
      by_cases tie : compare x y = 0
      · exact .inr ⟨tie, present.append (List.Sublist.refl [y])⟩
      · have := order.flip x y
        have := order.flip y x
        omega
    · exact cross x member y later

theorem InOrder.erase [DecidableEq ι] {compare : ι → ι → Int} (sorted : InOrder compare live nodes)
    (distinct : nodes.Nodup) (k : ι) : InOrder compare (live.erase k) (nodes.erase k) := by
  refine (List.Pairwise.sublist List.erase_sublist sorted).imp_of_mem fun {a b} inA inB ordered => ?_
  refine ordered.imp_right fun tie => ⟨tie.1, ?_⟩
  have notA : a ≠ k := (distinct.mem_erase_iff.mp inA).1
  have notB : b ≠ k := (distinct.mem_erase_iff.mp inB).1
  have kept := tie.2.erase k
  rwa [List.erase_of_not_mem (by simp [Ne.symm notA, Ne.symm notB])] at kept

theorem descend_place [DecidableEq ι] {T T₁ : PointerTree ι β} {t : KeyTree ι β} (goesLeft : ι → Bool)
    (focus : Focus T T .top t) (absent : new ∉ t.inorder) (others : ∀ z, z ≠ new → Same T T₁ z)
    (root : T₁.root = T.root) (enough : t.size ≤ fuel) :
    let c := Context.insertion goesLeft t .top
    T₁.descend goesLeft fuel none true T₁.root = some (c.link, c.allLeft) ∧ c.plug .nil = t ∧
      Focus T₁ T₁ c .nil ∧ new ∉ c.keys := by
  have focus₁ : Focus T₁ T₁ .top t := focus.forget absent others root
  have descended := focus₁.stored.descend (c := .top) goesLeft enough
  have plugged := Context.plug_insertion goesLeft t .top
  rw [Context.plug] at plugged
  refine ⟨by rw [focus₁.root_top]; exact descended, plugged, ?_, ?_⟩
  · exact Focus.top_iff.mpr (by rwa [plugged])
  · exact fun member => absent (plugged ▸ Context.mem_plug.mpr (.inl member))

theorem ordered_place {compare : ι → ι → Int} {t : KeyTree ι β} (order : TotalPreorder compare)
    (sorted : InOrder compare live t.inorder) (members : t.inorder.Perm live) (new : ι) :
    let c := Context.insertion (fun node => compare new node < 0) t .top
    (∀ x ∈ c.before, decide (compare new x < 0) = false) ∧
      (∀ x ∈ c.after, decide (compare new x < 0) = true) ∧
      InOrder compare (live ++ [new]) (c.before ++ new :: c.after) ∧
      (c.before ++ new :: c.after).Perm (live ++ [new]) := by
  intro c
  have between : c.before ++ c.after = t.inorder := Context.before_after_insertion _ t
  obtain ⟨notBefore, inFront⟩ := Context.insertion_separates (fun node => compare new node < 0)
    (c := .top) (sorted.goesLeft order new) (by simp [Context.before]) (by simp [Context.after])
  rw [← between] at sorted members
  refine ⟨notBefore, inFront, sorted.insert order members notBefore inFront, ?_⟩
  exact List.perm_middle.trans ((members.cons new).trans (List.perm_append_singleton new live).symm)

theorem head_insertion {compare : ι → ι → Int} {before after : List ι} {leftmost : ι}
    (notBefore : ∀ x ∈ before, decide (compare new x < 0) = false)
    (inFront : ∀ x ∈ after, decide (compare new x < 0) = true)
    (head : (before ++ after).head? = some leftmost) :
    (before ++ new :: after).head? = some (if compare new leftmost < 0 then new else leftmost) := by
  cases before with
  | nil =>
    have smaller : compare new leftmost < 0 := by
      simpa using inFront leftmost (List.mem_of_mem_head? head)
    simp [smaller]
  | cons x rest =>
    rw [List.cons_append, List.head?_cons, Option.some.injEq] at head
    subst leftmost
    have larger : ¬ compare new x < 0 := by simpa using notBefore x
    simp [larger]

/-- The memory holds a tree with the nodes `live`, ordered by the callback. -/
structure Represents (Shape : KeyTree ι β → Prop) (compare : ι → ι → Int) (T : PointerTree ι β)
    (live : List ι) (t : KeyTree ι β) : Prop where
  focus : Focus T T .top t
  shape : Shape t
  order : InOrder compare live t.inorder
  members : t.inorder.Perm live
  leftmost : T.leftmost = t.inorder.head?

inductive Action (ι : Type*) where
  | insert (node : ι)
  | delete (node : ι)
  deriving DecidableEq

section Runs
variable [DecidableEq ι]

/-- The nodes present after the actions, in the order of their insertion. Only
an absent node may be inserted and only a present one deleted. -/
def liveAfter : List ι → List (Action ι) → Option (List ι)
  | live, [] => some live
  | live, .insert node :: rest => if node ∈ live then none else liveAfter (live ++ [node]) rest
  | live, .delete node :: rest => if node ∈ live then liveAfter (live.erase node) rest else none

theorem length_liveAfter {live final : List ι} (admitted : liveAfter live actions = some final) :
    final.length ≤ live.length + actions.length := by
  induction actions generalizing live with
  | nil =>
    simp only [liveAfter, Option.some.injEq] at admitted
    simp [admitted]
  | cons action rest ih =>
    cases action with
    | insert node =>
      simp only [liveAfter] at admitted
      split at admitted
      · contradiction
      · have := ih admitted
        simp only [List.length_append, List.length_cons, List.length_nil] at this ⊢
        omega
    | delete node =>
      simp only [liveAfter] at admitted
      split at admitted
      · next present =>
          have := ih admitted
          have := List.length_erase_of_mem present
          simp only [List.length_cons]
          omega
      · contradiction

omit [DecidableEq ι] in
def execute (insert delete : PointerTree ι β → ι → Option (PointerTree ι β)) :
    PointerTree ι β → List (Action ι) → Option (PointerTree ι β)
  | T, [] => some T
  | T, .insert node :: rest => (insert T node).bind fun T => execute insert delete T rest
  | T, .delete node :: rest => (delete T node).bind fun T => execute insert delete T rest

variable {Shape : KeyTree ι β → Prop} {compare : ι → ι → Int}

theorem execute_represents (insert delete : PointerTree ι β → ι → Option (PointerTree ι β)) (size : Nat)
    (inserts : ∀ {T live t node}, Represents Shape compare T live t → node ∉ live →
      live.length < size → ∃ T' t', insert T node = some T' ∧
        Represents Shape compare T' (live ++ [node]) t')
    (deletes : ∀ {T live t node}, Represents Shape compare T live t → node ∈ live →
      live.length ≤ size → ∃ T' t', delete T node = some T' ∧
        Represents Shape compare T' (live.erase node) t')
    (start : Represents Shape compare T live t) (admitted : liveAfter live actions = some final)
    (bound : live.length + actions.length ≤ size) :
    ∃ T' t', execute insert delete T actions = some T' ∧ Represents Shape compare T' final t' := by
  induction actions generalizing T live t with
  | nil =>
    simp only [liveAfter, Option.some.injEq] at admitted
    subst final
    exact ⟨T, t, rfl, start⟩
  | cons action rest ih =>
    simp only [List.length_cons] at bound
    cases action with
    | insert node =>
      simp only [liveAfter] at admitted
      split at admitted
      · contradiction
      · next absent =>
          obtain ⟨T', t', done, represents⟩ := inserts start absent (by omega)
          rw [execute, done]
          exact ih represents admitted (by simp; omega)
    | delete node =>
      simp only [liveAfter] at admitted
      split at admitted
      · next present =>
          obtain ⟨T', t', done, represents⟩ := deletes start present (by omega)
          have := List.length_erase_of_mem present
          rw [execute, done]
          exact ih represents admitted (by omega)
      · contradiction

end Runs
end VeaOS.Rtl
