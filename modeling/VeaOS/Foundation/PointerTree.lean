import VeaOS.Foundation.ContextTree

/-! Binary trees whose nodes point at their children and at their parent, kept
in one memory of nodes. `Focus` relates the memory to a context and the tree in
its hole; an algorithm that walks and relinks the nodes is verified by moving
the focus and rewriting the tree in it. -/
namespace VeaOS.Foundation

open Context

/-- The memory of nodes, and the header of the tree under consideration. A
pointer that may be null is an `Option`. -/
structure PointerTree (ι β : Type*) where
  child : Side → ι → Option ι
  parent : ι → Option ι
  balance : ι → β
  root : Option ι
  leftmost : Option ι

namespace PointerTree
variable {ι β : Type*}

section Memory
variable [DecidableEq ι]

@[simps] def setChild (T : PointerTree ι β) (s : Side) (k : ι) (v : Option ι) : PointerTree ι β :=
  { T with child := fun side key => if side = s ∧ key = k then v else T.child side key }

@[simps] def setParent (T : PointerTree ι β) (k : ι) (v : Option ι) : PointerTree ι β :=
  { T with parent := fun key => if key = k then v else T.parent key }

@[simps] def setBalance (T : PointerTree ι β) (k : ι) (b : β) : PointerTree ι β :=
  { T with balance := fun key => if key = k then b else T.balance key }

@[simps] def setRoot (T : PointerTree ι β) (v : Option ι) : PointerTree ι β := { T with root := v }

@[simps] def setLeftmost (T : PointerTree ι β) (v : Option ι) : PointerTree ι β :=
  { T with leftmost := v }

/-- The parent of a node that may be null is set when there is a node. -/
def adopt (T : PointerTree ι β) : Option ι → Option ι → PointerTree ι β
  | none, _ => T
  | some k, v => T.setParent k v

/-- The link that leads to `node` from above is made to lead to `new`; the
child on side `s` is the one compared. -/
def relink (T : PointerTree ι β) (s : Side) (above : Option ι) (node : ι) (new : Option ι) :
    PointerTree ι β :=
  match above with
  | none => T.setRoot new
  | some p => if T.child s p = some node then T.setChild s p new else T.setChild s.opp p new

/-- Rotates `node` towards side `s`, below the child on its other side. -/
def rotate (s : Side) (T : PointerTree ι β) (node : ι) : Option (PointerTree ι β) :=
  match T.child s.opp node with
  | none => none
  | some pivot =>
    let inner := T.child s pivot
    let T := (T.setChild s.opp node inner).adopt inner (some node)
    let T := T.setParent pivot (T.parent node)
    let T := T.relink s (T.parent node) node (some pivot)
    some ((T.setChild s pivot (some node)).setParent node (some pivot))

end Memory

/-- The tree lies in the memory, below the node `up`. -/
def Stored (T : PointerTree ι β) : Option ι → KeyTree ι β → Prop
  | _, .nil => True
  | up, .node l k d r => T.child .left k = l.root ∧ T.child .right k = r.root ∧ T.parent k = up ∧
      T.balance k = d ∧ T.Stored (some k) l ∧ T.Stored (some k) r

/-- The context lies in the memory, and its hole holds the pointer `hole`. -/
def StoredAround (T : PointerTree ι β) : Context ι β → Option ι → Prop
  | .top, hole => T.root = hole
  | .frame s k d sib outer, hole => T.child s k = hole ∧ T.child s.opp k = sib.root ∧
      T.parent k = outer.parent ∧ T.balance k = d ∧ T.Stored (some k) sib ∧
      T.StoredAround outer (some k)

/-- The node reads the same in both memories. -/
structure Same (T T' : PointerTree ι β) (k : ι) : Prop where
  child (s) : T'.child s k = T.child s k
  parent : T'.parent k = T.parent k
  balance : T'.balance k = T.balance k

theorem Same.refl (T : PointerTree ι β) (k : ι) : Same T T k := ⟨fun _ => rfl, rfl, rfl⟩

theorem Same.trans (first : Same T T' k) (second : Same T' T'' k) : Same T T'' k :=
  ⟨fun s => (second.child s).trans (first.child s), second.parent.trans first.parent,
    second.balance.trans first.balance⟩

theorem Same.symm (same : Same T T' k) : Same T' T k :=
  ⟨fun s => (same.child s).symm, same.parent.symm, same.balance.symm⟩

theorem stored_nil (T : PointerTree ι β) (up : Option ι) : T.Stored up .nil := trivial

theorem stored_join {T : PointerTree ι β} {a b : KeyTree ι β} :
    T.Stored up (.join s a k d b) ↔ T.child s k = a.root ∧ T.child s.opp k = b.root ∧
      T.parent k = up ∧ T.balance k = d ∧ T.Stored (some k) a ∧ T.Stored (some k) b := by
  cases s
  · simp only [KeyTree.join, Stored, Side.opp]
  · simp only [KeyTree.join, Stored, Side.opp]
    tauto

theorem Stored.parent_root {t : KeyTree ι β} (stored : Stored T up t) (rooted : t.root = some k) :
    T.parent k = up := by
  cases t with
  | nil => simp at rooted
  | node l key d r =>
    simp only [KeyTree.root, Option.some.injEq] at rooted
    subst key
    exact stored.2.2.1

theorem Stored.congr {t : KeyTree ι β} (stored : Stored T up t)
    (same : ∀ k ∈ t.inorder, Same T T' k) : Stored T' up t := by
  induction t generalizing up with
  | nil => trivial
  | node l k d r left right =>
    obtain ⟨onLeft, onRight, above, data, below, below'⟩ := stored
    have here := same k (by simp [KeyTree.inorder])
    exact ⟨(here.child _).trans onLeft, (here.child _).trans onRight, here.parent.trans above,
      here.balance.trans data, left below fun x member => same x (by simp [KeyTree.inorder, member]),
      right below' fun x member => same x (by simp [KeyTree.inorder, member])⟩

theorem StoredAround.congr {c : Context ι β} (around : StoredAround T c hole)
    (same : ∀ k ∈ c.keys, Same T T' k) (root : T'.root = T.root) : StoredAround T' c hole := by
  induction c generalizing hole with
  | top => exact root.trans around
  | frame s k d sib outer ih =>
    obtain ⟨near, far, above, data, below, around⟩ := around
    have here := same k (by simp [keys])
    exact ⟨(here.child _).trans near, (here.child _).trans far, here.parent.trans above,
      here.balance.trans data, below.congr fun x member => same x (by simp [keys, member]),
      ih around fun x member => same x (by simp [keys, member])⟩

section Writes
variable [DecidableEq ι] {T T' : PointerTree ι β}

theorem same_setChild (other : x ≠ k) : Same T (T.setChild s k v) x := by
  constructor <;> simp [other]

theorem same_setParent (other : x ≠ k) : Same T (T.setParent k v) x := by
  constructor <;> simp [other]

theorem same_setBalance (other : x ≠ k) : Same T (T.setBalance k b) x := by
  constructor <;> simp [other]

omit [DecidableEq ι] in
theorem same_setRoot : Same T (T.setRoot v) x := ⟨fun _ => rfl, rfl, rfl⟩

omit [DecidableEq ι] in
theorem same_setLeftmost : Same T (T.setLeftmost v) x := ⟨fun _ => rfl, rfl, rfl⟩

theorem same_adopt (other : o ≠ some x) : Same T (T.adopt o v) x := by
  cases o with
  | none => exact .refl T x
  | some k => exact same_setParent fun same => other (by rw [same])

@[simp] theorem adopt_child (o v : Option ι) : (T.adopt o v).child = T.child := by cases o <;> rfl
@[simp] theorem adopt_balance (o v : Option ι) : (T.adopt o v).balance = T.balance := by
  cases o <;> rfl
@[simp] theorem adopt_root (o v : Option ι) : (T.adopt o v).root = T.root := by cases o <;> rfl
@[simp] theorem adopt_leftmost (o v : Option ι) : (T.adopt o v).leftmost = T.leftmost := by
  cases o <;> rfl

@[simp] theorem adopt_parent (o v : Option ι) (x : ι) :
    (T.adopt o v).parent x = if o = some x then v else T.parent x := by
  cases o with
  | none => simp [adopt]
  | some k => simp [adopt, eq_comm]

theorem adopt_parent_of_ne (other : o ≠ some x) : (T.adopt o v).parent x = T.parent x :=
  (same_adopt other).parent

theorem Stored.adopt {t : KeyTree ι β} (stored : Stored T up t) (distinct : t.Distinct) :
    Stored (T.adopt t.root p) p t := by
  cases t with
  | nil => trivial
  | node l k d r =>
    obtain ⟨onLeft, onRight, _, data, below, below'⟩ := stored
    rw [show KeyTree.node l k d r = .join .left l k d r from rfl, KeyTree.distinct_join] at distinct
    obtain ⟨_, _, notLeft, notRight, _⟩ := distinct
    refine ⟨onLeft, onRight, by simp [PointerTree.adopt, KeyTree.root], data, below.congr ?_,
      below'.congr ?_⟩
    · exact fun x member => same_setParent fun same => notLeft (same ▸ member)
    · exact fun x member => same_setParent fun same => notRight (same ▸ member)

/-- The pointer in the hole of a context is overwritten. -/
def hang (T : PointerTree ι β) : Context ι β → Option ι → PointerTree ι β
  | .top, new => T.setRoot new
  | .frame s k _ _ _, new => T.setChild s k new

theorem same_hang {c : Context ι β} (other : x ∉ c.keys) : Same T (T.hang c new) x := by
  cases c with
  | top => exact same_setRoot
  | frame s k d sib outer =>
    exact same_setChild fun same => other (by simp [keys, same])

@[simp] theorem hang_child (c : Context ι β) (s : Side) (x : ι) :
    (T.hang c new).child s x = if c.link = some (x, s) then new else T.child s x := by
  cases c with
  | top => rfl
  | frame side k d sib outer =>
    simp only [hang, link, setChild_child, Option.some.injEq, Prod.mk.injEq, eq_comm, and_comm]

@[simp] theorem hang_root (c : Context ι β) :
    (T.hang c new).root = if c.link = none then new else T.root := by cases c <;> rfl
@[simp] theorem hang_parent (c : Context ι β) : (T.hang c new).parent = T.parent := by
  cases c <;> rfl
@[simp] theorem hang_balance (c : Context ι β) : (T.hang c new).balance = T.balance := by
  cases c <;> rfl
@[simp] theorem hang_leftmost (c : Context ι β) : (T.hang c new).leftmost = T.leftmost := by
  cases c <;> rfl

theorem StoredAround.hang {c : Context ι β} (around : StoredAround T c hole)
    (distinct : c.keys.Nodup) (new : Option ι) : StoredAround (T.hang c new) c new := by
  cases c with
  | top => rfl
  | frame s k d sib outer =>
    obtain ⟨_, far, above, data, below, around⟩ := around
    simp only [keys, List.nodup_cons, List.mem_append, not_or] at distinct
    obtain ⟨⟨notSib, notOuter⟩, _⟩ := distinct
    refine ⟨by simp [PointerTree.hang], by simp [PointerTree.hang, far], above, data,
      below.congr ?_, around.congr ?_ rfl⟩
    · exact fun x member => same_setChild fun same => notSib (same ▸ member)
    · exact fun x member => same_setChild fun same => notOuter (same ▸ member)

theorem StoredAround.relink {c : Context ι β} (around : StoredAround T c (some node))
    (outside : node ∉ c.keys) (s : Side) (new : Option ι)
    (same : ∀ p, c.parent = some p → T'.child s p = T.child s p) :
    T'.relink s c.parent node new = T'.hang c new := by
  cases c with
  | top => rfl
  | frame side k d sib outer =>
    obtain ⟨near, far, _⟩ := around
    have read := same k rfl
    simp only [keys, List.mem_cons, List.mem_append, not_or] at outside
    have apart : sib.root ≠ some node :=
      fun rooted => outside.2.1 (KeyTree.mem_inorder_of_root rooted)
    obtain rfl | rfl := Side.eq_or_opp s side
    · simp [PointerTree.relink, PointerTree.hang, read, near]
    · simp only [Side.opp_opp] at far
      simp [PointerTree.relink, PointerTree.hang, read, far, apart]

theorem adopt_setChild (T : PointerTree ι β) (s : Side) (o p v : Option ι) (k : ι) :
    (T.setChild s k v).adopt o p = (T.adopt o p).setChild s k v := by cases o <;> rfl

theorem adopt_hang (T : PointerTree ι β) (c : Context ι β) (o p new : Option ι) :
    (T.hang c new).adopt o p = (T.adopt o p).hang c new := by
  cases c with
  | top => cases o <;> rfl
  | frame s k d sib outer => exact adopt_setChild ..

theorem relink_adopt (T : PointerTree ι β) (s : Side) (above o p new : Option ι) (node : ι) :
    (T.adopt o p).relink s above node new = (T.relink s above node new).adopt o p := by
  cases o with
  | none => rfl
  | some k =>
    cases above with
    | none => rfl
    | some q =>
      simp only [relink, adopt, setParent_child]
      split <;> rfl

end Writes

/-- The memory `T` holds the tree `t` in the context `c`, and differs from
`base` in the nodes of that tree and in the root only. -/
structure Focus (base T : PointerTree ι β) (c : Context ι β) (t : KeyTree ι β) : Prop where
  stored : T.Stored c.parent t
  around : T.StoredAround c t.root
  distinct : (c.plug t).Distinct
  frame : ∀ k, k ∉ (c.plug t).inorder → Same base T k
  leftmost : T.leftmost = base.leftmost

namespace Focus
variable {base T T' : PointerTree ι β}

theorem rebase (focus : Focus base T c t) : Focus T T c t :=
  ⟨focus.stored, focus.around, focus.distinct, fun k _ => .refl T k, rfl⟩

theorem join_iff {t sib : KeyTree ι β} :
    Focus base T (.frame s k d sib c) t ↔ Focus base T c (.join s t k d sib) := by
  constructor
  · rintro ⟨stored, ⟨near, far, above, data, below, around⟩, distinct, frame, leftmost⟩
    exact ⟨stored_join.mpr ⟨near, far, above, data, stored, below⟩, by rwa [KeyTree.root_join],
      distinct, frame, leftmost⟩
  · rintro ⟨stored, around, distinct, frame, leftmost⟩
    obtain ⟨near, far, above, data, below, below'⟩ := stored_join.mp stored
    rw [KeyTree.root_join] at around
    exact ⟨below, ⟨near, far, above, data, below', around⟩, distinct, frame, leftmost⟩

theorem join_opp_iff {t sib : KeyTree ι β} :
    Focus base T (.frame s.opp k d sib c) t ↔ Focus base T c (.join s sib k d t) := by
  rw [join_iff, KeyTree.join_opp]

theorem plug_iff {inner : Context ι β} {t : KeyTree ι β} :
    Focus base T (inner.append c) t ↔ Focus base T c (inner.plug t) := by
  induction inner generalizing t with
  | top => rfl
  | frame s k d sib rest ih => exact join_iff.trans (ih.trans Iff.rfl)

theorem top_iff {t : KeyTree ι β} : Focus base T c t ↔ Focus base T .top (c.plug t) := by
  rw [← plug_iff]
  suffices same : c.append .top = c by rw [same]
  induction c with
  | top => rfl
  | frame s k d sib outer ih => rw [append, ih]

section Reads
variable {a b : KeyTree ι β}

theorem child_near (focus : Focus base T c (.join s a k d b)) : T.child s k = a.root :=
  (stored_join.mp focus.stored).1

theorem child_far (focus : Focus base T c (.join s a k d b)) : T.child s.opp k = b.root :=
  (stored_join.mp focus.stored).2.1

theorem parent (focus : Focus base T c (.join s a k d b)) : T.parent k = c.parent :=
  (stored_join.mp focus.stored).2.2.1

theorem balance (focus : Focus base T c (.join s a k d b)) : T.balance k = d :=
  (stored_join.mp focus.stored).2.2.2.1

end Reads

theorem apart {t sib : KeyTree ι β} (focus : Focus base T (.frame s k d sib c) t)
    (rooted : t.root = some x) : sib.root ≠ some x := fun same =>
  (distinct_plug.mp focus.distinct).2.2 x (KeyTree.mem_inorder_of_root rooted)
    (by simp [keys, KeyTree.mem_inorder_of_root same])

theorem side_eq [DecidableEq ι] {t sib : KeyTree ι β} (focus : Focus base T (.frame s k d sib c) t)
    (apart : sib.root ≠ t.root) : (if T.child .left k = t.root then Side.left else .right) = s := by
  have joined := join_iff.mp focus
  cases s with
  | left => rw [joined.child_near, if_pos rfl]
  | right =>
    have far := joined.child_far
    rw [Side.opp_right] at far
    rw [far, if_neg apart]

theorem root_top (focus : Focus base T .top t) : T.root = t.root := focus.around

theorem root_ne {t sib : KeyTree ι β} (focus : Focus base T (.frame s k d sib c) t) :
    t.root ≠ T.root := by
  have whole := (top_iff.mp focus).root_top
  obtain ⟨r, rooted⟩ : ∃ r, ((Context.frame s k d sib c).plug t).root = some r :=
    Context.exists_root_plug
  rw [whole, rooted]
  intro inside
  exact (Context.distinct_plug.mp focus.distinct).2.2 r (KeyTree.mem_inorder_of_root inside)
    (Context.root_plug_mem_keys rooted)

theorem parts (focus : Focus base T c t) :
    t.Distinct ∧ c.keys.Nodup ∧ ∀ x ∈ t.inorder, x ∉ c.keys :=
  distinct_plug.mp focus.distinct

section Writes
variable [DecidableEq ι]

theorem setBalance {a b : KeyTree ι β} (focus : Focus base T c (.join s a k d b)) (e : β) :
    Focus base (T.setBalance k e) c (.join s a k e b) := by
  obtain ⟨near, far, above, _, below, below'⟩ := stored_join.mp focus.stored
  obtain ⟨distinct, _, outside⟩ := focus.parts
  obtain ⟨_, _, notNear, notFar, _⟩ := KeyTree.distinct_join.mp distinct
  have notKeys := outside k (KeyTree.mem_join.mpr (.inr (.inl rfl)))
  have keys : ∀ x, x ∈ (c.plug (.join s a k e b)).inorder ↔ x ∈ (c.plug (.join s a k d b)).inorder := by
    intro x
    rw [mem_plug, mem_plug, KeyTree.mem_join, KeyTree.mem_join]
  refine ⟨stored_join.mpr ⟨near, far, above, by simp, ?_, ?_⟩, ?_, ?_, ?_, focus.leftmost⟩
  · exact below.congr fun x member => same_setBalance fun same => notNear (same ▸ member)
  · exact below'.congr fun x member => same_setBalance fun same => notFar (same ▸ member)
  · have around := focus.around
    rw [KeyTree.root_join] at around ⊢
    exact around.congr (fun x member => same_setBalance fun same => notKeys (same ▸ member)) rfl
  · rw [distinct_plug]
    exact ⟨KeyTree.distinct_join.mpr (KeyTree.distinct_join.mp distinct), focus.parts.2.1, by
      simpa only [KeyTree.mem_join] using outside⟩
  · intro x absent
    rw [keys] at absent
    have other : x ≠ k := fun same => absent <| by
      rw [mem_plug, KeyTree.mem_join]
      exact .inr (.inr (.inl same))
    exact (focus.frame x absent).trans (same_setBalance other)

omit [DecidableEq ι] in
theorem setLeftmost (focus : Focus base T c t) (v : Option ι) :
    Focus (base.setLeftmost v) (T.setLeftmost v) c t :=
  ⟨focus.stored.congr fun _ _ => same_setLeftmost,
    focus.around.congr (fun _ _ => same_setLeftmost) rfl, focus.distinct,
    fun k absent => same_setLeftmost.symm.trans ((focus.frame k absent).trans same_setLeftmost), rfl⟩

omit [DecidableEq ι] in
theorem reshape {t t' : KeyTree ι β} (focus : Focus base T c t) (order : t'.inorder = t.inorder)
    (stored : T'.Stored c.parent t') (around : T'.StoredAround c t'.root)
    (confined : ∀ k, k ∉ (c.plug t).inorder → Same T T' k) (leftmost : T'.leftmost = T.leftmost) :
    Focus base T' c t' := by
  have same := inorder_plug_congr (c := c) order
  refine ⟨stored, around, ?_, ?_, leftmost.trans focus.leftmost⟩
  · rw [KeyTree.Distinct, same]
    exact focus.distinct
  · intro k absent
    rw [same] at absent
    exact (focus.frame k absent).trans (confined k absent)

theorem rotate {a b e : KeyTree ι β} (focus : Focus base T c (.join s a x dx (.join s b y dy e))) :
    ∃ T', PointerTree.rotate s T x = some T' ∧
      Focus base T' c (.join s (.join s a x dx b) y dy e) := by
  obtain ⟨distinct, keys, outside⟩ := focus.parts
  obtain ⟨onNear, onFar, above, dataX, storedA, storedY⟩ := stored_join.mp focus.stored
  obtain ⟨innerNear, innerFar, aboveY, dataY, storedB, storedE⟩ := stored_join.mp storedY
  obtain ⟨_, distinctY, notA, notY, apart⟩ := KeyTree.distinct_join.mp distinct
  obtain ⟨distinctB, _, yNotB, yNotE, apartY⟩ := KeyTree.distinct_join.mp distinctY
  simp only [KeyTree.mem_join, not_or] at notY apart
  obtain ⟨xNotB, xy, xNotE⟩ := notY
  have xOutside := outside x (by simp [KeyTree.mem_join])
  have yOutside := outside y (by simp [KeyTree.mem_join])
  have around := focus.around
  rw [KeyTree.root_join] at onFar around
  -- the memory before the link from above is overwritten
  let T₁ := ((T.setChild s.opp x b.root).adopt b.root (some x)).setParent y c.parent
  have same₁ : ∀ z, z ≠ x → z ≠ y → z ∉ b.inorder → Same T T₁ z := fun z notX notY notB =>
    ((same_setChild notX).trans
      (same_adopt fun rooted => notB (KeyTree.mem_inorder_of_root rooted))).trans (same_setParent notY)
  have around₁ : StoredAround T₁ c (some x) := around.congr
    (fun z member => same₁ z (fun same => xOutside (same ▸ member))
      (fun same => yOutside (same ▸ member))
      (fun inB => outside z (by simp [KeyTree.mem_join, inB]) member)) (by simp [T₁])
  let T₂ := T₁.hang c (some y)
  have around₂ : StoredAround T₂ c (some y) := around₁.hang keys _
  let T₃ := (T₂.setChild s y (some x)).setParent x (some y)
  have same₃ : ∀ z, z ≠ x → z ≠ y → Same T₂ T₃ z := fun z notX notY =>
    (same_setChild notY).trans (same_setParent notX)
  have inside : ∀ z, z ∉ c.keys → z ≠ x → z ≠ y → z ∉ b.inorder → Same T T₃ z :=
    fun z notKey notX notY notB =>
      ((same₁ z notX notY notB).trans (same_hang notKey)).trans (same₃ z notX notY)
  refine ⟨T₃, ?_, focus.reshape (KeyTree.inorder_rotate s a b e) ?_ ?_ ?_ (by simp [T₃, T₂, T₁])⟩
  · have parentX : ((T.setChild s.opp x b.root).adopt b.root (some x)).parent x = c.parent := by
      rw [adopt_parent_of_ne fun rooted => xNotB (KeyTree.mem_inorder_of_root rooted)]
      exact above
    have linked := around₁.relink xOutside s (some y) fun _ _ => rfl
    simp only [PointerTree.rotate, onFar, innerNear, parentX, setParent_parent, xy, if_false]
    rw [show ((T.setChild s.opp x b.root).adopt b.root (some x)).setParent y c.parent = T₁ from rfl,
      linked]
  · have childX : ∀ side, T₂.child side x = T₁.child side x := (same_hang xOutside).child
    have childY : ∀ side, T₂.child side y = T₁.child side y := (same_hang yOutside).child
    have near : Stored T₃ (some x) a := storedA.congr fun z member =>
      inside z (fun key => outside z (by simp [KeyTree.mem_join, member]) key)
        (fun same => notA (same ▸ member)) (fun same => (apart z member).2.1 same)
        (apart z member).1
    have middle : Stored T₃ (some x) b := by
      have moved : Stored ((T.setChild s.opp x b.root).adopt b.root (some x)) (some x) b :=
        (storedB.congr fun z member =>
          same_setChild fun same : z = x => xNotB (same ▸ member)).adopt distinctB
      refine moved.congr fun z member => ?_
      have notX : z ≠ x := fun same => xNotB (same ▸ member)
      have notY : z ≠ y := fun same => yNotB (same ▸ member)
      exact ((same_setParent notY).trans
        (same_hang fun key => outside z (by simp [KeyTree.mem_join, member]) key)).trans
          (same₃ z notX notY)
    have far : Stored T₃ (some y) e := storedE.congr fun z member =>
      inside z (fun key => outside z (by simp [KeyTree.mem_join, member]) key)
        (fun same => xNotE (same ▸ member)) (fun same => yNotE (same ▸ member))
        (fun inB => apartY z inB member)
    refine stored_join.mpr ⟨by simp [T₃], ?_, ?_, ?_, stored_join.mpr ⟨?_, ?_, ?_, ?_, near, middle⟩, far⟩
    · simp [T₃, childY, T₁, Ne.symm xy, innerFar]
    · simp [T₃, T₂, T₁, Ne.symm xy]
    · simp [T₃, T₂, T₁, dataY]
    · simp [T₃, childX, T₁, xy, onNear]
    · simp [T₃, childX, T₁, xy]
    · simp [T₃]
    · simp [T₃, T₂, T₁, dataX]
  · rw [KeyTree.root_join]
    exact around₂.congr (fun z member => same₃ z (fun same => xOutside (same ▸ member))
      (fun same => yOutside (same ▸ member))) (by simp [T₃])
  · intro z absent
    simp only [mem_plug, KeyTree.mem_join, not_or] at absent
    exact inside z absent.1 absent.2.2.1 absent.2.2.2.2.1 absent.2.2.2.1

theorem relink {a b : KeyTree ι β} (focus : Focus base T c (.join s a k d b)) (side : Side)
    (new : Option ι) (same : ∀ p, c.parent = some p → T'.child side p = T.child side p) :
    T'.relink side c.parent k new = T'.hang c new := by
  have around := focus.around
  rw [KeyTree.root_join] at around
  exact around.relink (focus.parts.2.2 k (by simp [KeyTree.mem_join])) side new same

theorem detach {t : KeyTree ι β} (focus : Focus base T c (.join s t k d .nil)) :
    Focus T ((T.adopt t.root c.parent).hang c t.root) c t := by
  obtain ⟨distinct, keys, outside⟩ := focus.parts
  obtain ⟨_, _, _, _, below, _⟩ := stored_join.mp focus.stored
  have distinctT : t.Distinct := (KeyTree.distinct_join.mp distinct).1
  have apart : ∀ z ∈ t.inorder, z ∉ c.keys := fun z member =>
    outside z (by simp [KeyTree.mem_join, member])
  have notRoot : ∀ z, z ∉ t.inorder → t.root ≠ some z := fun z absent rooted =>
    absent (KeyTree.mem_inorder_of_root rooted)
  refine ⟨(below.adopt distinctT).congr fun z member => same_hang (apart z member), ?_, ?_, ?_, ?_⟩
  · have around := focus.around
    rw [KeyTree.root_join] at around
    exact (around.congr (fun z member => same_adopt (notRoot z fun inside => apart z inside member))
      (by simp)).hang keys _
  · rw [distinct_plug]
    exact ⟨distinctT, keys, apart⟩
  · intro z absent
    rw [mem_plug, not_or] at absent
    exact (same_adopt (notRoot z absent.2)).trans (same_hang absent.1)
  · simp

omit [DecidableEq ι] in
theorem forget {t : KeyTree ι β} (focus : Focus base T c t) (outside : k ∉ (c.plug t).inorder)
    (others : ∀ z, z ≠ k → Same T T' z) (root : T'.root = T.root) : Focus T' T' c t := by
  have kept : ∀ z ∈ (c.plug t).inorder, Same T T' z := fun z member =>
    others z fun same => outside (same ▸ member)
  exact ⟨focus.stored.congr fun z member => kept z (mem_plug.mpr (.inr member)),
    focus.around.congr (fun z member => kept z (mem_plug.mpr (.inl member))) root,
    focus.distinct, fun z _ => .refl T' z, rfl⟩

end Writes
end Focus

variable [DecidableEq ι] {base T T' : PointerTree ι β}

theorem assemble {l r : KeyTree ι β} {c : Context ι β} (left : T.Stored upLeft l)
    (right : T.Stored upRight r) (around : T.StoredAround c hole)
    (distinct : (c.plug (.node l m d r)).Distinct) (onLeft : T'.child .left m = l.root)
    (onRight : T'.child .right m = r.root) (above : T'.parent m = c.parent) (data : T'.balance m = d)
    (parents : ∀ z ≠ m, T'.parent z = if l.root = some z ∨ r.root = some z then some m else T.parent z)
    (children : ∀ z ≠ m, ∀ s, T'.child s z = (T.hang c (some m)).child s z)
    (balances : ∀ z ≠ m, T'.balance z = T.balance z) (root : T'.root = (T.hang c (some m)).root) :
    Focus T' T' c (.node l m d r) := by
  obtain ⟨inner, keys, outside⟩ := distinct_plug.mp distinct
  obtain ⟨distinctL, distinctR, notL, notR, apart⟩ := KeyTree.distinct_join (s := .left).mp inner
  have rootless : ∀ (t : KeyTree ι β) z, z ∉ t.inorder → t.root ≠ some z := fun t z absent rooted =>
    absent (KeyTree.mem_inorder_of_root rooted)
  have below : ∀ {t : KeyTree ι β} {up}, T.Stored up t → t.Distinct → (∀ z ∈ t.inorder, z ≠ m) →
      (∀ z ∈ t.inorder, z ∉ c.keys) → (∀ z, t.root = some z → T'.parent z = some m) →
      (∀ z ∈ t.inorder, t.root ≠ some z → T'.parent z = T.parent z) → T'.Stored (some m) t := by
    intro t up stored distinct other apart atRoot elsewhere
    refine (stored.adopt (p := some m) distinct).congr fun z member => ?_
    have hung : ∀ s, (T.hang c (some m)).child s z = T.child s z := (same_hang (apart z member)).child
    refine ⟨fun s => ?_, ?_, ?_⟩
    · rw [children z (other z member), hung, adopt_child]
    · rw [adopt_parent]
      split
      · next rooted => exact atRoot z rooted
      · next inside => exact elsewhere z member inside
    · rw [balances z (other z member), adopt_balance]
  have notKey := outside m (by simp [KeyTree.inorder])
  refine ⟨⟨onLeft, onRight, above, data, ?_, ?_⟩, ?_, distinct, fun z _ => .refl _ z, rfl⟩
  · refine below left distinctL (fun z member same => notL (same ▸ member))
      (fun z member => outside z (by simp [KeyTree.inorder, member])) ?_ ?_
    · intro z rooted
      have other : z ≠ m := fun same => notL (same ▸ KeyTree.mem_inorder_of_root rooted)
      simp [parents z other, rooted]
    · intro z member notRoot
      have other : z ≠ m := fun same => notL (same ▸ member)
      simp [parents z other, notRoot, rootless r z (apart z member)]
  · refine below right distinctR (fun z member same => notR (same ▸ member))
      (fun z member => outside z (by simp [KeyTree.inorder, member])) ?_ ?_
    · intro z rooted
      have other : z ≠ m := fun same => notR (same ▸ KeyTree.mem_inorder_of_root rooted)
      simp [parents z other, rooted]
    · intro z member notRoot
      have other : z ≠ m := fun same => notR (same ▸ member)
      simp [parents z other, notRoot, rootless l z fun inLeft => apart z inLeft member]
  · refine (around.hang keys (some m)).congr (fun z member => ?_) root
    have other : z ≠ m := fun same => notKey (same ▸ member)
    refine ⟨children z other, ?_, by rw [balances z other, hang_balance]⟩
    rw [hang_parent, parents z other, if_neg]
    rintro (rooted | rooted)
    · exact outside z (by simp [KeyTree.inorder, KeyTree.mem_inorder_of_root rooted]) member
    · exact outside z (by simp [KeyTree.inorder, KeyTree.mem_inorder_of_root rooted]) member

theorem Focus.attach {c : Context ι β} (focus : Focus base T c .nil) (fresh : new ∉ c.keys)
    (onLeft : T'.child .left new = none) (onRight : T'.child .right new = none)
    (above : T'.parent new = c.parent) (data : T'.balance new = d)
    (others : ∀ z ≠ new, Same T T' z) (root : T'.root = T.root) :
    Focus (T'.hang c (some new)) (T'.hang c (some new)) c (.node .nil new d .nil) := by
  have same : Same T' (T'.hang c (some new)) new := same_hang fresh
  refine assemble (T.stored_nil none) (T.stored_nil none) focus.around ?_
    ((same.child _).trans onLeft) ((same.child _).trans onRight) (same.parent.trans above)
    (same.balance.trans data) (fun z other => ?_) (fun z other s => ?_) (fun z other => ?_) ?_
  · rw [distinct_plug]
    refine ⟨by simp [KeyTree.Distinct, KeyTree.inorder], focus.parts.2.1, fun x member => ?_⟩
    simp only [KeyTree.inorder, List.nil_append, List.mem_singleton] at member
    rwa [member]
  · simp [(others z other).parent]
  · simp [(others z other).child]
  · simp [(others z other).balance]
  · simp [root]

end PointerTree
end VeaOS.Foundation
