import VeaOS.Rtl.AvlTree

/-! The rotations of the AVL tree and its loop on the way up: wherever the
height of one subtree has changed by at most one, the loop restores a balanced
tree with the same order. -/
namespace VeaOS.Rtl
open Foundation PointerTree KeyTree
variable {ι : Type*}

def height : KeyTree ι Int → Int
  | .nil => 0
  | .node l _ _ r => 1 + max (height l) (height r)

/-- Every stored height is exact, and siblings differ by at most one. -/
def Avl : KeyTree ι Int → Prop
  | .nil => True
  | .node l _ d r => d = 1 + max (height l) (height r) ∧ height l ≤ height r + 1 ∧
      height r ≤ height l + 1 ∧ Avl l ∧ Avl r

/-- The context is balanced around a hole of height `h`. -/
def AvlAround : Context ι Int → Int → Prop
  | .top, _ => True
  | .frame _ _ _ sib outer, h => Avl sib ∧ h ≤ height sib + 1 ∧ height sib ≤ h + 1 ∧
      AvlAround outer (1 + max h (height sib))

@[simp] theorem height_nil : height (.nil : KeyTree ι Int) = 0 := rfl

@[simp] theorem height_join (s : Side) (a b : KeyTree ι Int) :
    height (.join s a k d b) = 1 + max (height a) (height b) := by
  cases s
  · rfl
  · simp only [KeyTree.join, height, Int.max_comm]

theorem height_nonneg (t : KeyTree ι Int) : 0 ≤ height t := by
  induction t with
  | nil => exact Int.le_refl 0
  | node l k d r left right =>
    simp only [height]
    omega

theorem avl_join {s : Side} {a b : KeyTree ι Int} :
    Avl (.join s a k d b) ↔ d = 1 + max (height a) (height b) ∧ height a ≤ height b + 1 ∧
      height b ≤ height a + 1 ∧ Avl a ∧ Avl b := by
  cases s
  · rfl
  · simp only [KeyTree.join, Avl, Int.max_comm (height b)]
    tauto

theorem avl_plug {c : Context ι Int} {t : KeyTree ι Int} (avl : Avl (c.plug t)) :
    Avl t ∧ AvlAround c (height t) := by
  induction c generalizing t with
  | top => exact ⟨avl, trivial⟩
  | frame s k d sib outer ih =>
    obtain ⟨joined, around⟩ := ih avl
    obtain ⟨_, near, far, balanced, sibling⟩ := avl_join.mp joined
    rw [height_join] at around
    exact ⟨balanced, sibling, near, far, around⟩

section Heights
variable {base T : AvlTree ι}

theorem getHeight_root {t : KeyTree ι Int} (stored : T.Stored up t) (avl : Avl t) :
    avlGetHeight T t.root = height t := by
  cases t with
  | nil => rfl
  | node l k d r => exact stored.2.2.2.1.trans avl.1

theorem getHeight_near {a b : KeyTree ι Int} (focus : Focus base T c (.join s a k d b)) (avl : Avl a) :
    avlGetHeight T (T.child s k) = height a := by
  rw [focus.child_near]
  exact getHeight_root (Focus.join_iff.mpr focus).stored avl

theorem getHeight_far {a b : KeyTree ι Int} (focus : Focus base T c (.join s a k d b)) (avl : Avl b) :
    avlGetHeight T (T.child s.opp k) = height b := by
  rw [← join_opp] at focus
  exact getHeight_near focus avl

theorem nodeHeight_join {a b : KeyTree ι Int} (focus : Focus base T c (.join s a k d b)) (avlA : Avl a)
    (avlB : Avl b) : avlNodeHeight T k = 1 + max (height a) (height b) := by
  have near := getHeight_near focus avlA
  have far := getHeight_far focus avlB
  cases s with
  | left =>
    rw [Side.opp_left] at far
    simp only [avlNodeHeight, near, far]
  | right =>
    rw [Side.opp_right] at far
    simp only [avlNodeHeight, near, far, Int.max_comm]

variable [DecidableEq ι]

theorem rotateIterative_spec {a b e : KeyTree ι Int}
    (focus : Focus base T c (.join s a x dx (.join s b y dy e)))
    (avlA : Avl a) (avlB : Avl b) (avlE : Avl e)
    (siblings : height a ≤ height b + 1 ∧ height b ≤ height a + 1) :
    ∃ T', rtlpRotateIterative s T x = some T' ∧
      Focus base T' c (.join s (.join s a x (1 + max (height a) (height b)) b) y
        (1 + max (1 + max (height a) (height b)) (height e)) e) := by
  obtain ⟨T₁, rotated, focus₁⟩ := focus.rotate
  have inner := Focus.join_iff.mpr focus₁
  have heightX := nodeHeight_join inner avlA avlB
  have focus₂ := Focus.join_iff.mp (inner.setBalance (1 + max (height a) (height b)))
  have avlX : Avl (.join s a x (1 + max (height a) (height b)) b) :=
    avl_join.mpr ⟨rfl, siblings.1, siblings.2, avlA, avlB⟩
  have heightY := nodeHeight_join focus₂ avlX avlE
  rw [height_join] at heightY
  refine ⟨_, ?_, focus₂.setBalance _⟩
  have pivot := focus.child_far
  rw [root_join] at pivot
  simp only [rtlpRotateIterative, pivot, rotated, heightX, heightY, Option.bind_eq_bind,
    Option.bind_some, Option.pure_def]

theorem relieve_spec {inner e : KeyTree ι Int} (focus : Focus base T c (.join s inner x dx e))
    (avlInner : Avl inner) (avlE : Avl e) (heavy : height inner = height e + 2) :
    ∃ T' t', relieve s T x = some T' ∧ Focus base T' c t' ∧ Avl t' ∧
      t'.inorder = (KeyTree.join s inner x dx e).inorder ∧ height e + 2 ≤ height t' ∧
      height t' ≤ height e + 3 ∧ T'.parent x = t'.root := by
  have nonneg := height_nonneg e
  obtain rfl | ⟨a, y, dy, b, rfl⟩ := inner.eq_nil_or_join s
  · simp only [height_nil] at heavy
    omega
  obtain ⟨exactY, nearY, farY, avlA, avlB⟩ := avl_join.mp avlInner
  rw [height_join] at heavy
  have childX := focus.child_near
  rw [root_join] at childX
  have below := Focus.join_iff.mpr focus
  have outerHeight := getHeight_far below avlB
  have innerHeight := getHeight_near below avlA
  by_cases lean : height b - height a > 0
  · obtain rfl | ⟨b₁, z, dz, b₂, rfl⟩ := b.eq_nil_or_join s
    · have := height_nonneg a
      simp only [height_nil] at lean
      omega
    obtain ⟨exactZ, nearZ, farZ, avl₁, avl₂⟩ := avl_join.mp avlB
    rw [height_join] at lean heavy farY nearY outerHeight
    obtain ⟨T₁, rotated, focus₁⟩ := rotateIterative_spec below avlA avl₁ avl₂ (by omega)
    have focus₂ := Focus.join_iff.mp focus₁
    rw [← join_opp s, ← join_opp s b₂] at focus₂
    have avlY : Avl (.join s a y (1 + max (height a) (height b₁)) b₁) :=
      avl_join.mpr ⟨rfl, by omega, by omega, avlA, avl₁⟩
    obtain ⟨T₂, rotated₂, focus₃⟩ := rotateIterative_spec focus₂ avlE avl₂ avlY (by omega)
    refine ⟨T₂, _, ?_, focus₃, ?_, ?_, ?_, ?_, ?_⟩
    · simp only [relieve, childX, outerHeight, innerHeight, lean, rotated, rotated₂, if_true,
        Option.bind_eq_bind, Option.bind_some]
    · rw [height_join]
      refine avl_join.mpr ⟨?_, ?_, ?_, avl_join.mpr ⟨rfl, ?_, ?_, avlE, avl₂⟩, avlY⟩
      all_goals try simp only [height_join]
      all_goals omega
    · cases s <;> simp [KeyTree.join, inorder]
    · simp only [height_join]
      omega
    · simp only [height_join]
      omega
    · rw [(Focus.join_iff.mpr focus₃).parent, Context.parent_frame, root_join]
  · rw [← join_opp s, ← join_opp s] at focus
    obtain ⟨T₁, rotated, focus₁⟩ := rotateIterative_spec focus avlE avlB avlA (by omega)
    refine ⟨T₁, _, ?_, focus₁, ?_, ?_, ?_, ?_, ?_⟩
    · simp only [relieve, childX, outerHeight, innerHeight, lean, rotated, if_false,
        Option.bind_eq_bind, Option.bind_some]
    · refine avl_join.mpr ⟨?_, ?_, ?_, avl_join.mpr ⟨rfl, ?_, ?_, avlE, avlB⟩, avlA⟩
      all_goals try simp only [height_join]
      all_goals omega
    · cases s <;> simp [KeyTree.join, inorder]
    · simp only [height_join]
      omega
    · simp only [height_join]
      omega
    · rw [(Focus.join_iff.mpr focus₁).parent, Context.parent_frame, root_join]

theorem rebalanceNode_left {a b : KeyTree ι Int} (focus : Focus base T c (.join .left a k d b))
    (avlA : Avl a) (avlB : Avl b) (near : height a ≤ height b + 2) (far : height b ≤ height a + 2) :
    ∃ T' t', rebalanceNode T k = some T' ∧ Focus base T' c t' ∧ Avl t' ∧
      t'.inorder = (KeyTree.join .left a k d b).inorder ∧ max (height a) (height b) ≤ height t' ∧
      height t' ≤ 1 + max (height a) (height b) ∧
      (height a ≤ height b + 1 → height b ≤ height a + 1 →
        height t' = 1 + max (height a) (height b) ∧ T'.parent k = c.parent) ∧
      (height b + 1 < height a ∨ height a + 1 < height b → T'.parent k = t'.root) := by
  have focus₁ := focus.setBalance (1 + max (height a) (height b))
  have heightA := getHeight_near focus₁ avlA
  have heightB := getHeight_far focus₁ avlB
  rw [Side.opp_left] at heightB
  by_cases left : height b - height a < -1
  · obtain ⟨T', t', relieved, focus', avl', order, lower, upper, above⟩ :=
      relieve_spec focus₁ avlA avlB (by omega)
    refine ⟨T', t', ?_, focus', avl', order, by omega, by omega, ?_, fun _ => above⟩
    · simp only [rebalanceNode, nodeHeight_join focus avlA avlB, heightA, heightB, left, if_true,
        relieved]
    · intro _ _
      omega
  · by_cases right : height b - height a > 1
    · have mirrored := focus₁
      rw [← join_opp] at mirrored
      obtain ⟨T', t', relieved, focus', avl', order, lower, upper, above⟩ :=
        relieve_spec mirrored avlB avlA (by omega)
      rw [Side.opp_left] at relieved
      refine ⟨T', t', ?_, focus', avl', order, by omega, by omega, ?_, fun _ => above⟩
      · simp only [rebalanceNode, nodeHeight_join focus avlA avlB, heightA, heightB, left, right,
          if_true, if_false, relieved]
      · intro _ _
        omega
    · refine ⟨_, _, ?_, focus₁, avl_join.mpr ⟨rfl, by omega, by omega, avlA, avlB⟩, rfl, ?_, ?_, ?_, ?_⟩
      · simp only [rebalanceNode, nodeHeight_join focus avlA avlB, heightA, heightB, left, right,
          if_false]
      · rw [height_join]
        omega
      · exact Int.le_of_eq (height_join ..)
      · exact fun _ _ => ⟨height_join .., focus₁.parent⟩
      · intro _
        omega

theorem rebalanceNode_spec {a b : KeyTree ι Int} (focus : Focus base T c (.join s a k d b))
    (avlA : Avl a) (avlB : Avl b) (near : height a ≤ height b + 2) (far : height b ≤ height a + 2) :
    ∃ T' t', rebalanceNode T k = some T' ∧ Focus base T' c t' ∧ Avl t' ∧
      t'.inorder = (KeyTree.join s a k d b).inorder ∧ max (height a) (height b) ≤ height t' ∧
      height t' ≤ 1 + max (height a) (height b) ∧
      (height a ≤ height b + 1 → height b ≤ height a + 1 →
        height t' = 1 + max (height a) (height b) ∧ T'.parent k = c.parent) ∧
      (height b + 1 < height a ∨ height a + 1 < height b → T'.parent k = t'.root) := by
  cases s with
  | left => exact rebalanceNode_left focus avlA avlB near far
  | right =>
    obtain ⟨T', t', done, focus', avl', order, low, high, still, rotated⟩ :=
      rebalanceNode_left (a := b) (b := a) focus avlB avlA far near
    rw [Int.max_comm] at low high still
    exact ⟨T', t', done, focus', avl', order, low, high, fun below above => still above below,
      fun apart => rotated apart.symm⟩

theorem rebalance_spec {t : KeyTree ι Int} {c : Context ι Int} (focus : Focus base T c t) (avl : Avl t)
    (around : AvlAround c h) (lower : h ≤ height t + 1) (upper : height t ≤ h + 1)
    (enough : 2 * c.depth ≤ fuel) :
    ∃ T' t', rebalance fuel T c.parent = some T' ∧ Focus base T' .top t' ∧ Avl t' ∧
      t'.inorder = (c.plug t).inorder := by
  induction c generalizing t h T fuel with
  | top =>
    refine ⟨T, t, ?_, focus, avl, rfl⟩
    cases fuel <;> rfl
  | frame s k d sib outer ih =>
    obtain ⟨avlSib, near, far, around⟩ := around
    simp only [Context.depth] at enough
    obtain ⟨fuel, rfl⟩ : ∃ rest, fuel = rest + 2 := ⟨fuel - 2, by omega⟩
    obtain ⟨T₁, t₁, done, focus₁, avl₁, order, low, high, still, rotated⟩ :=
      rebalanceNode_spec (Focus.join_iff.mp focus) avl avlSib (by omega) (by omega)
    have finish : ∀ {T₂ t₂} (extra : Nat), extra ≤ 1 → Focus base T₂ outer t₂ → Avl t₂ →
        t₂.inorder = t₁.inorder → 1 + max h (height sib) ≤ height t₂ + 1 →
        height t₂ ≤ 1 + max h (height sib) + 1 →
        ∃ T' t', rebalance (fuel + extra) T₂ outer.parent = some T' ∧ Focus base T' .top t' ∧
          Avl t' ∧ t'.inorder = ((Context.frame s k d sib outer).plug t).inorder := by
      intro T₂ t₂ extra _ focus₂ avl₂ order₂ lower₂ upper₂
      obtain ⟨T', t', ended, focus', avl', order'⟩ :=
        ih focus₂ avl₂ around lower₂ upper₂ (show _ ≤ fuel + extra by omega)
      exact ⟨T', t', ended, focus', avl', order'.trans
        (Context.inorder_plug_congr (order₂.trans order))⟩
    simp only [Context.parent_frame, rebalance, done, Option.bind_eq_bind, Option.bind_some]
    by_cases balanced : height t ≤ height sib + 1 ∧ height sib ≤ height t + 1
    · obtain ⟨height₁, above⟩ := still balanced.1 balanced.2
      rw [above]
      exact finish 1 (by omega) focus₁ avl₁ rfl (by omega) (by omega)
    · -- a rotation: the new root of the subtree is visited, and nothing is left to do there
      rw [rotated (by omega)]
      obtain rfl | ⟨a, y, e, b, rfl⟩ := t₁.eq_nil_or_join .left
      · cases s <;> simp [KeyTree.join, inorder] at order
      · obtain ⟨_, balanced₁, balanced₁', avlA, avlB⟩ := avl_join.mp avl₁
        obtain ⟨T₂, t₂, again, focus₂, avl₂, order₂, _, _, still₂, _⟩ :=
          rebalanceNode_spec focus₁ avlA avlB (by omega) (by omega)
        obtain ⟨height₂, above₂⟩ := still₂ balanced₁ balanced₁'
        rw [height_join] at low high
        simp only [root_join, rebalance, again, above₂, Option.bind_eq_bind, Option.bind_some]
        exact finish 0 (by omega) focus₂ avl₂ order₂ (by omega) (by omega)

end Heights
end VeaOS.Rtl
