import VeaOS.Rtl.RbTree

/-! The two fix-up loops of the red-black tree. The insertion loop carries a
red subtree below a context that asks for a black one; the deletion loop
carries a subtree that is one black node short for its context. -/
namespace VeaOS.Rtl
open Foundation PointerTree Context Focus KeyTree
variable {ι : Type*}

def rootColor : KeyTree ι RbColor → RbColor
  | .nil => .black
  | .node _ _ color _ => color

/-- No red node has a red child, and every path down has `n` black nodes. -/
def RedBlack : KeyTree ι RbColor → Nat → Prop
  | .nil, n => n = 0
  | .node l _ .black r, n => ∃ m, n = m + 1 ∧ RedBlack l m ∧ RedBlack r m
  | .node l _ .red r, n =>
    RedBlack l n ∧ RedBlack r n ∧ rootColor l = .black ∧ rootColor r = .black

/-- The context makes a red-black tree with a black root of a subtree with `n`
black nodes on every path and the given root colour. -/
def RbAround : Context ι RbColor → Nat → RbColor → Prop
  | .top, _, color => color = .black
  | .frame _ _ .black sib outer, n, _ => RedBlack sib n ∧ RbAround outer (n + 1) .black
  | .frame _ _ .red sib outer, n, color =>
    color = .black ∧ RedBlack sib n ∧ rootColor sib = .black ∧ RbAround outer n .red

def Rb (t : KeyTree ι RbColor) : Prop := rootColor t = .black ∧ ∃ n, RedBlack t n

def blacken : KeyTree ι RbColor → KeyTree ι RbColor
  | .nil => .nil
  | .node l k _ r => .node l k .black r

@[simp] theorem rootColor_nil : rootColor (.nil : KeyTree ι RbColor) = .black := rfl

@[simp] theorem rootColor_join (s : Side) (a b : KeyTree ι RbColor) :
    rootColor (.join s a k color b) = color := by cases s <;> rfl

@[simp] theorem blacken_join (s : Side) (a b : KeyTree ι RbColor) :
    blacken (.join s a k color b) = .join s a k .black b := by cases s <;> rfl

@[simp] theorem inorder_blacken (t : KeyTree ι RbColor) : (blacken t).inorder = t.inorder := by
  cases t <;> rfl

@[simp] theorem root_blacken (t : KeyTree ι RbColor) : (blacken t).root = t.root := by cases t <;> rfl

@[simp] theorem rootColor_blacken (t : KeyTree ι RbColor) : rootColor (blacken t) = .black := by
  cases t <;> rfl

theorem redBlack_black {s : Side} {a b : KeyTree ι RbColor} :
    RedBlack (.join s a k .black b) n ↔ ∃ m, n = m + 1 ∧ RedBlack a m ∧ RedBlack b m := by
  cases s
  · rfl
  · simp only [KeyTree.join, RedBlack, and_comm (a := RedBlack b _)]

theorem redBlack_red {s : Side} {a b : KeyTree ι RbColor} :
    RedBlack (.join s a k .red b) n ↔
      RedBlack a n ∧ RedBlack b n ∧ rootColor a = .black ∧ rootColor b = .black := by
  cases s
  · rfl
  · simp only [KeyTree.join, RedBlack]
    tauto

theorem blacken_of_black {t : KeyTree ι RbColor} (black : rootColor t = .black) : blacken t = t := by
  cases t with
  | nil => rfl
  | node l k color r => rw [blacken, ← black]; rfl

theorem RedBlack.blacken_red {t : KeyTree ι RbColor} (shape : RedBlack t n) (red : rootColor t = .red) :
    RedBlack (blacken t) (n + 1) := by
  cases t with
  | nil => simp at red
  | node l k color r =>
    obtain rfl : color = .red := red
    exact ⟨n, rfl, shape.1, shape.2.1⟩

theorem RedBlack.rb_blacken {t : KeyTree ι RbColor} (shape : RedBlack t n) : Rb (blacken t) := by
  cases color : rootColor t with
  | black => exact ⟨rootColor_blacken t, n, by rwa [blacken_of_black color]⟩
  | red => exact ⟨rootColor_blacken t, n + 1, shape.blacken_red color⟩

theorem RbAround.weaken {c : Context ι RbColor} (around : RbAround c n color) :
    RbAround c n .black := by
  cases c with
  | top => rfl
  | frame s k data sib outer => cases data with
    | black => exact around
    | red => exact ⟨rfl, around.2⟩

theorem RbAround.plug {c : Context ι RbColor} {t : KeyTree ι RbColor}
    (around : RbAround c n (rootColor t)) (shape : RedBlack t n) : Rb (c.plug t) := by
  induction c generalizing t n with
  | top => exact ⟨around, n, shape⟩
  | frame s k color sib outer ih => cases color with
    | black =>
      refine ih (n := n + 1) (by rw [rootColor_join]; exact around.2) ?_
      exact redBlack_black.mpr ⟨n, rfl, shape, around.1⟩
    | red =>
      refine ih (n := n) (by rw [rootColor_join]; exact around.2.2.2) ?_
      exact redBlack_red.mpr ⟨shape, around.2.1, around.1, around.2.2.1⟩

theorem rb_plug {c : Context ι RbColor} {t : KeyTree ι RbColor} (rb : Rb (c.plug t)) :
    ∃ n, RedBlack t n ∧ RbAround c n (rootColor t) := by
  induction c generalizing t with
  | top => exact ⟨rb.2.choose, rb.2.choose_spec, rb.1⟩
  | frame s k color sib outer ih =>
    obtain ⟨n, shape, around⟩ := ih rb
    rw [rootColor_join] at around
    cases color with
    | black =>
      obtain ⟨m, rfl, near, far⟩ := redBlack_black.mp shape
      exact ⟨m, near, far, around⟩
    | red =>
      obtain ⟨near, far, black, black'⟩ := redBlack_red.mp shape
      exact ⟨n, near, black, far, black', around⟩

section Fixups
variable {base T : RbTree ι}

theorem isBlack_root {t : KeyTree ι RbColor} (stored : T.Stored up t) :
    isBlack T t.root = decide (rootColor t = .black) := by
  cases t with
  | nil => rfl
  | node l k color r =>
    have data : T.balance k = color := stored.2.2.2.1
    subst color
    rfl

variable [DecidableEq ι]

theorem paintBlack_spec {t : KeyTree ι RbColor} (focus : Focus base T c t) :
    Focus base (paintBlack T t.root) c (blacken t) := by
  cases t with
  | nil => exact focus
  | node l k color r => exact focus.setBalance (s := .left) .black

theorem paintBlack_far {a b : KeyTree ι RbColor} (focus : Focus base T c (.join s a k color b)) :
    Focus base (paintBlack T b.root) c (.join s a k color (blacken b)) :=
  join_opp_iff.mp (paintBlack_spec (join_opp_iff.mpr focus))

theorem setBalance_near {a b e : KeyTree ι RbColor}
    (focus : Focus base T c (.join s (.join side a p color b) k data e)) (paint : RbColor) :
    Focus base (T.setBalance p paint) c (.join s (.join side a p paint b) k data e) :=
  join_iff.mp ((join_iff.mpr focus).setBalance paint)

theorem insertFixupRotate_spec {t b uncle : KeyTree ι RbColor}
    (focus : Focus base T c (.join s (.join s t q .red b) g .black uncle)) (rooted : t.root = some z) :
    ∃ T', insertFixupRotate s T z = some (T', z) ∧
      Focus base T' (.frame s q .black (.join s.opp uncle g .red b) c) t := by
  have below := join_iff.mpr (join_iff.mpr focus)
  have parentZ := below.stored.parent_root rooted
  rw [parent_frame] at parentZ
  have parentQ := (join_iff.mpr focus).parent
  rw [parent_frame] at parentQ
  have painted := (setBalance_near focus .black).setBalance .red
  rw [← join_opp s, ← join_opp s] at painted
  obtain ⟨T', rotated, focus'⟩ := painted.rotate
  refine ⟨T', ?_, join_iff.mpr ?_⟩
  · simp only [insertFixupRotate, parentZ, parentQ, setBalance_parent, rotated, Option.bind_eq_bind,
      Option.bind_some, Option.pure_def]
  · rwa [join_opp] at focus'

/-- What one turn of the insertion loop leaves: again a red node below a context
that asks for a black one, one level higher at least. -/
theorem insertFixupStep_spec {t sib uncle : KeyTree ι RbColor}
    (focus : Focus base T c (.join s' (.join s t p .red sib) g .black uncle)) (rooted : t.root = some z)
    (red : rootColor t = .red) (shape : RedBlack t n) (shapeSib : RedBlack sib n)
    (blackSib : rootColor sib = .black) (shapeUncle : RedBlack uncle n)
    (around : RbAround c (n + 1) .black) :
    ∃ T' z' c' t' n', insertFixupStep s' T z = some (T', z') ∧ Focus base T' c' t' ∧
      t'.root = some z' ∧ rootColor t' = .red ∧ RedBlack t' n' ∧ RbAround c' n' .black ∧
      (c'.plug t').inorder = (c.plug (.join s' (.join s t p .red sib) g .black uncle)).inorder ∧
      c'.depth ≤ c.depth + 1 := by
  have upper := join_iff.mpr focus
  have below := join_iff.mpr upper
  have parentZ := below.stored.parent_root rooted
  have parentP := upper.parent
  rw [parent_frame] at parentZ parentP
  have uncleG := focus.child_far
  have uncleColor := isBlack_root (join_opp_iff.mpr focus).stored
  cases color : rootColor uncle with
  | red =>
    have painted := (paintBlack_far (setBalance_near focus .black)).setBalance .red
    refine ⟨_, g, c, _, n + 1, ?_, painted, root_join .., rootColor_join .., ?_, around, ?_,
      Nat.le_succ _⟩
    · simp [insertFixupStep, parentZ, parentP, uncleG, uncleColor, color]
    · refine redBlack_red.mpr ⟨redBlack_black.mpr ⟨n, rfl, shape, shapeSib⟩,
        shapeUncle.blacken_red color, rootColor_join .., rootColor_blacken _⟩
    · refine inorder_plug_congr ?_
      cases s' <;> cases s <;> simp [KeyTree.join, inorder]
  | black =>
    have rotates : ∀ {T₁ t₁ q b x}, Focus base T₁ c (.join s' (.join s' t₁ q .red b) g .black uncle) →
        t₁.root = some x → rootColor t₁ = .red → RedBlack t₁ n → RedBlack b n →
        rootColor b = .black →
        (KeyTree.join s' t₁ q .red b).inorder = (KeyTree.join s t p .red sib).inorder →
        ∃ T' z' c' t' n', insertFixupRotate s' T₁ x = some (T', z') ∧ Focus base T' c' t' ∧
          t'.root = some z' ∧ rootColor t' = .red ∧ RedBlack t' n' ∧ RbAround c' n' .black ∧
          (c'.plug t').inorder =
            (c.plug (.join s' (.join s t p .red sib) g .black uncle)).inorder ∧
          c'.depth ≤ c.depth + 1 := by
      intro T₁ t₁ q b x focus₁ rooted₁ red₁ shape₁ shapeB blackB order
      obtain ⟨T', done, focus'⟩ := insertFixupRotate_spec focus₁ rooted₁
      refine ⟨T', x, _, t₁, n, done, focus', rooted₁, red₁, shape₁,
        ⟨redBlack_red.mpr ⟨shapeUncle, shapeB, color, blackB⟩, around⟩, ?_, Nat.le_refl _⟩
      have outer : (KeyTree.join s' (.join s' t₁ q .red b) g .black uncle).inorder =
          (KeyTree.join s' (.join s t p .red sib) g .black uncle).inorder := inorder_join_congr order
      rw [plug]
      refine inorder_plug_congr (Eq.trans ?_ outer)
      cases s' <;> simp [KeyTree.join, inorder]
    obtain rfl | rfl := s'.eq_or_opp s
    · have straight : T.child s.opp p ≠ some z := by
        rw [upper.child_far]
        intro same
        exact below.parts.2.2 z (mem_inorder_of_root rooted)
          (by simp [keys, mem_inorder_of_root same])
      simpa [insertFixupStep, parentZ, parentP, uncleG, uncleColor, color, straight] using
        rotates focus rooted red shape shapeSib blackSib rfl
    · obtain ⟨a, data, b, rfl⟩ := eq_join_of_root s' rooted
      obtain rfl : data = .red := by simpa using red
      obtain ⟨shapeA, shapeB, blackA, blackB⟩ := redBlack_red.mp shape
      have bent : T.child s'.opp p = some z := by rw [upper.child_near, root_join]
      rw [join_opp] at upper
      obtain ⟨T₁, rotated, focus₁⟩ := upper.rotate
      have result := rotates (join_iff.mp focus₁) (root_join ..) (rootColor_join ..)
        (redBlack_red.mpr ⟨shapeSib, shapeA, blackSib, blackA⟩) shapeB blackB
        (by cases s' <;> simp [KeyTree.join, inorder])
      simpa [insertFixupStep, parentZ, parentP, uncleG, uncleColor, color, bent, rotated] using result

theorem blackenRoot_spec {t : KeyTree ι RbColor} (focus : Focus base T .top t) (rooted : t.root = some r)
    (shape : RedBlack t n) : ∃ T', blackenRoot T = some T' ∧ Focus base T' .top (blacken t) ∧
      Rb (blacken t) ∧ (blacken t).inorder = t.inorder := by
  have painted := paintBlack_spec focus
  rw [rooted] at painted
  refine ⟨_, ?_, painted, shape.rb_blacken, inorder_blacken t⟩
  simp [blackenRoot, focus.root_top, rooted, paintBlack]

theorem insertFixup_spec {c : Context ι RbColor} {t : KeyTree ι RbColor} (focus : Focus base T c t)
    (rooted : t.root = some z) (red : rootColor t = .red) (shape : RedBlack t n)
    (around : RbAround c n .black) (enough : c.depth < fuel) :
    ∃ T' t', rtlRbInsertFixup fuel T z = some T' ∧ Focus base T' .top t' ∧ Rb t' ∧
      t'.inorder = (c.plug t).inorder := by
  induction fuel generalizing T c t z n with
  | zero => omega
  | succ fuel ih =>
    have parentZ := focus.stored.parent_root rooted
    cases c with
    | top =>
      obtain ⟨T', painted, focus', rb, order⟩ := blackenRoot_spec focus rooted shape
      rw [parent_top] at parentZ
      exact ⟨T', _, by simp only [rtlRbInsertFixup, parentZ, painted], focus', rb, order⟩
    | frame s p color sib outer =>
      have upper := join_iff.mp focus
      have colorP := upper.balance
      rw [parent_frame] at parentZ
      cases color with
      | black =>
        obtain ⟨r, whole⟩ : ∃ r, ((frame s p .black sib outer).plug t).root = some r :=
          exists_root_plug
        have fits : RbAround (.frame s p .black sib outer) n (rootColor t) := ⟨around.1, around.2⟩
        obtain ⟨n', shape'⟩ := (fits.plug shape).2
        obtain ⟨T', painted, focus', rb, order⟩ :=
          blackenRoot_spec (top_iff.mp focus) whole shape'
        refine ⟨T', _, ?_, focus', rb, order⟩
        simp [rtlRbInsertFixup, parentZ, colorP, painted]
      | red =>
        obtain ⟨_, shapeSib, blackSib, outside⟩ := around
        cases outer with
        | top => simp [RbAround] at outside
        | frame s' g data uncle rest => cases data with
          | red => simp [RbAround] at outside
          | black =>
            have whole := join_iff.mp upper
            obtain ⟨T₁, z₁, c₁, t₁, n₁, stepped, focus₁, rooted₁, red₁, shape₁, around₁, order₁,
              depth₁⟩ := insertFixupStep_spec whole rooted red shape shapeSib blackSib outside.1
                outside.2
            simp only [depth] at enough
            obtain ⟨T', t', ended, focus', rb, order⟩ :=
              ih focus₁ rooted₁ red₁ shape₁ around₁ (by omega)
            refine ⟨T', t', ?_, focus', rb, order.trans order₁⟩
            have parentP := upper.parent
            rw [parent_frame] at parentP
            have side : (if T.child .left g = some p then Side.left else .right) = s' := by
              have decided := upper.side_eq (by
                rw [root_join]
                exact upper.apart (root_join ..))
              rwa [root_join] at decided
            simp only [rtlRbInsertFixup, parentZ, colorP, parentP, side, stepped, ended, if_true,
              Option.bind_eq_bind, Option.bind_some]

theorem setBalance_far {a b e : KeyTree ι RbColor}
    (focus : Focus base T c (.join s e k data (.join side a p color b))) (paint : RbColor) :
    Focus base (T.setBalance p paint) c (.join s e k data (.join side a p paint b)) :=
  join_opp_iff.mp ((join_opp_iff.mpr focus).setBalance paint)

omit [DecidableEq ι] in
theorem redBlack_succ {t : KeyTree ι RbColor} (s : Side) (shape : RedBlack t (n + 1))
    (black : rootColor t = .black) :
    ∃ a k b, t = .join s a k .black b ∧ RedBlack a n ∧ RedBlack b n := by
  obtain rfl | ⟨a, k, color, b, rfl⟩ := t.eq_nil_or_join s
  · simp [RedBlack] at shape
  · obtain rfl : color = .black := by simpa using black
    obtain ⟨m, same, shapeA, shapeB⟩ := redBlack_black.mp shape
    obtain rfl : n = m := by omega
    exact ⟨a, k, b, rfl, shapeA, shapeB⟩

theorem deleteFixupSibling_spec {t sib : KeyTree ι RbColor}
    (focus : Focus base T c (.join s t k color sib))
    (around : RbAround (.frame s k color sib c) (n + 1) .black) :
    ∃ T' c' color' a w b, deleteFixupSibling s T k = some (T', w) ∧
      Focus base T' c' (.join s t k color' (.join s a w .black b)) ∧ RedBlack a n ∧ RedBlack b n ∧
      RbAround (.frame s k color' (.join s a w .black b) c') (n + 1) .black ∧
      (c'.plug (.join s t k color' (.join s a w .black b))).inorder =
        (c.plug (.join s t k color sib)).inorder ∧ (color' = .red ∨ c' = c) := by
  have sibling := focus.child_far
  cases red : rootColor sib with
  | black =>
    have shape : RedBlack sib (n + 1) := by cases color with
      | black => exact around.1
      | red => exact around.2.1
    obtain ⟨a, w, b, rfl, shapeA, shapeB⟩ := redBlack_succ s shape red
    rw [root_join] at sibling
    have data := (join_opp_iff.mpr focus).balance
    refine ⟨T, c, color, a, w, b, ?_, focus, shapeA, shapeB, around, rfl, .inr rfl⟩
    simp [deleteFixupSibling, sibling, data]
  | red =>
    cases color with
    | red => simp [around.2.2.1] at red
    | black =>
      obtain ⟨near, w, data, far, rfl⟩ : ∃ near w data far, sib = .join s near w data far := by
        obtain rfl | found := sib.eq_nil_or_join s
        · simp at red
        · exact found
      obtain rfl : data = .red := by simpa using red
      obtain ⟨shapeNear, shapeFar, blackNear, blackFar⟩ := redBlack_red.mp around.1
      obtain ⟨a, w', b, rfl, shapeA, shapeB⟩ := redBlack_succ s shapeNear blackNear
      rw [root_join] at sibling
      have data := (join_opp_iff.mpr focus).balance
      obtain ⟨T', rotated, focus'⟩ := ((setBalance_far focus .black).setBalance .red).rotate
      have next := (join_iff.mpr focus').child_far
      rw [root_join] at next
      refine ⟨T', _, .red, a, w', b, ?_, join_iff.mpr focus', shapeA, shapeB, ?_, ?_, .inl rfl⟩
      · simp [deleteFixupSibling, sibling, data, rotated, next]
      · exact ⟨rfl, shapeNear, blackNear, shapeFar, around.2⟩
      · rw [plug]
        refine inorder_plug_congr ?_
        cases s <;> simp [KeyTree.join, inorder]

theorem deleteFixupNephew_spec {t a b : KeyTree ι RbColor}
    (focus : Focus base T c (.join s t k color (.join s a w .black b))) (shapeA : RedBlack a n)
    (shapeB : RedBlack b n) (some_red : ¬ (rootColor a = .black ∧ rootColor b = .black)) :
    ∃ T' a' w' data b', deleteFixupNephew s T k w = some (T', w') ∧
      Focus base T' c (.join s t k color (.join s a' w' data b')) ∧ RedBlack a' n ∧ RedBlack b' n ∧
      rootColor b' = .red ∧
      (KeyTree.join s a' w' data b').inorder = (KeyTree.join s a w .black b).inorder := by
  have below := join_opp_iff.mpr focus
  have farColor := isBlack_root (join_opp_iff.mpr below).stored
  rw [← below.child_far] at farColor
  cases black : rootColor b with
  | red =>
    refine ⟨T, a, w, .black, b, ?_, focus, shapeA, shapeB, black, rfl⟩
    simp [deleteFixupNephew, farColor, black]
  | black =>
    have red : rootColor a = .red := by
      cases color : rootColor a with
      | red => rfl
      | black => exact absurd ⟨color, black⟩ some_red
    obtain ⟨p, v, data, q, rfl⟩ : ∃ p v data q, a = .join s p v data q := by
      obtain rfl | found := a.eq_nil_or_join s
      · simp at red
      · exact found
    obtain rfl : data = .red := by simpa using red
    obtain ⟨shapeP, shapeQ, _, blackQ⟩ := redBlack_red.mp shapeA
    have nearW := below.child_near
    rw [root_join] at nearW
    have painted := (setBalance_near below .black).setBalance .red
    rw [← join_opp s, ← join_opp s q] at painted
    obtain ⟨T', rotated, focus'⟩ := painted.rotate
    rw [join_opp, join_opp] at focus'
    have whole := join_opp_iff.mp focus'
    have next := whole.child_far
    rw [root_join] at next
    refine ⟨T', p, v, .black, _, ?_, whole, shapeP,
      redBlack_red.mpr ⟨shapeQ, shapeB, blackQ, black⟩, rootColor_join .., ?_⟩
    · simp [deleteFixupNephew, farColor, black, nearW, paintBlack, rotated, next]
    · cases s <;> simp [KeyTree.join, inorder]

theorem deleteFixupRotate_spec {t a b : KeyTree ι RbColor}
    (focus : Focus base T c (.join s t k color (.join s a w data b))) :
    ∃ T', deleteFixupRotate s T k w = some T' ∧
      Focus base T' c (.join s (.join s t k .black a) w color (blacken b)) := by
  have recoloured := (setBalance_far focus color).setBalance .black
  have below := join_opp_iff.mpr recoloured
  have painted := join_opp_iff.mp (paintBlack_far below)
  obtain ⟨T', rotated, focus'⟩ := painted.rotate
  refine ⟨T', ?_, focus'⟩
  simp only [deleteFixupRotate, focus.balance, below.child_far, rotated]

theorem deleteFixup_exit {t : KeyTree ι RbColor} (focus : Focus base T c t)
    (stop : c = .top ∨ rootColor t = .red) (rb : Rb (c.plug (blacken t))) :
    ∃ T' t', (∀ fuel xParent, rtlRbDeleteFixup fuel T t.root xParent = some T') ∧
      Focus base T' .top t' ∧ Rb t' ∧ t'.inorder = (c.plug t).inorder := by
  refine ⟨_, _, fun fuel xParent => ?_, top_iff.mp (paintBlack_spec focus), rb,
    inorder_plug_congr (inorder_blacken t)⟩
  have stopped : ¬ (t.root ≠ T.root ∧ isBlack T t.root = true) := by
    rcases stop with rfl | red
    · simp [focus.root_top]
    · simp [isBlack_root focus.stored, red]
  unfold rtlRbDeleteFixup
  exact if_neg stopped

/-- The deletion loop, from a subtree with one black node too few. -/
theorem deleteFixup_spec {c : Context ι RbColor} {t : KeyTree ι RbColor} (focus : Focus base T c t)
    (shape : RedBlack t n) (black : rootColor t = .black) (around : RbAround c (n + 1) .black)
    (enough : c.depth ≤ fuel) :
    ∃ T' t', rtlRbDeleteFixup fuel T t.root c.parent = some T' ∧ Focus base T' .top t' ∧ Rb t' ∧
      t'.inorder = (c.plug t).inorder := by
  induction c generalizing T t n fuel with
  | top =>
    obtain ⟨T', t', exit, result⟩ := deleteFixup_exit focus (.inl rfl) shape.rb_blacken
    exact ⟨T', t', exit _ _, result⟩
  | frame s k color sib outer ih =>
    simp only [depth] at enough
    obtain ⟨fuel, rfl⟩ : ∃ less, fuel = less + 1 := ⟨fuel - 1, by omega⟩
    have whole := join_iff.mp focus
    obtain ⟨T₁, c₁, color₁, a, w, b, sibling, focus₁, shapeA, shapeB, around₁, order₁, shorter⟩ :=
      deleteFixupSibling_spec whole around
    have continues : t.root ≠ T.root ∧ isBlack T t.root = true :=
      ⟨focus.root_ne, by simp [isBlack_root focus.stored, black]⟩
    have side : (if T.child .left k = t.root then Side.left else .right) = s := by
      refine focus.side_eq fun same => ?_
      cases t with
      | nil =>
        have empty := (root_eq_none sib).mp (by rw [same, root_nil])
        subst sib
        cases color <;> simp [RbAround, RedBlack] at around
      | node tl x data tr => exact focus.apart rfl same
    have below := join_opp_iff.mpr focus₁
    have nearColor := isBlack_root (join_iff.mpr below).stored
    have farColor := isBlack_root (join_opp_iff.mpr below).stored
    rw [← below.child_near] at nearColor
    rw [← below.child_far] at farColor
    rw [rtlRbDeleteFixup, if_pos continues]
    by_cases both : rootColor a = .black ∧ rootColor b = .black
    · have painted := setBalance_far focus₁ .red
      have stepped : deleteFixupStep s T k = some (T₁.setBalance w .red, some k, c₁.parent) := by
        simp [deleteFixupStep, sibling, nearColor, farColor, both, focus₁.parent]
      have shape₁ : RedBlack (.join s t k .black (.join s a w .red b)) (n + 1) :=
        redBlack_black.mpr ⟨n, rfl, shape, redBlack_red.mpr ⟨shapeA, shapeB, both⟩⟩
      have order₂ : (c₁.plug (.join s t k color₁ (.join s a w .red b))).inorder =
          (outer.plug (.join s t k color sib)).inorder := by
        rw [← order₁]
        refine inorder_plug_congr ?_
        cases s <;> simp [KeyTree.join, inorder]
      cases color₁ with
      | red =>
        obtain ⟨T', t', exit, focus', rb, order⟩ := deleteFixup_exit painted
          (.inr (rootColor_join ..)) (by
            rw [blacken_join]
            refine RbAround.plug ?_ shape₁
            rw [rootColor_join]
            exact around₁.2.2.2.weaken)
        refine ⟨T', t', ?_, focus', rb, order.trans order₂⟩
        rw [root_join] at exit
        simp [side, stepped, exit]
      | black =>
        obtain rfl : c₁ = outer := shorter.resolve_left (by simp)
        obtain ⟨T', t', ended, focus', rb, order⟩ :=
          ih painted shape₁ (rootColor_join ..) around₁.2 (show _ ≤ fuel by omega)
        refine ⟨T', t', ?_, focus', rb, order.trans order₂⟩
        rw [root_join] at ended
        simp [side, stepped, ended]
    · obtain ⟨T₂, a₂, w₂, data₂, b₂, nephew, focus₂, shapeA₂, shapeB₂, red₂, order₂⟩ :=
        deleteFixupNephew_spec focus₁ shapeA shapeB both
      obtain ⟨T₃, rotated, focus₃⟩ := deleteFixupRotate_spec focus₂
      have near : RedBlack (.join s t k .black a₂) (n + 1) :=
        redBlack_black.mpr ⟨n, rfl, shape, shapeA₂⟩
      have far := shapeB₂.blacken_red red₂
      have rb : Rb (c₁.plug (.join s (.join s t k .black a₂) w₂ color₁ (blacken b₂))) := by
        cases color₁ with
        | black =>
          refine RbAround.plug (n := n + 2) ?_ (redBlack_black.mpr ⟨n + 1, rfl, near, far⟩)
          rw [rootColor_join]
          exact around₁.2
        | red =>
          refine RbAround.plug ?_
            (redBlack_red.mpr ⟨near, far, rootColor_join .., rootColor_blacken b₂⟩)
          rw [rootColor_join]
          exact around₁.2.2.2
      have focus₄ := top_iff.mp focus₃
      obtain ⟨T', t', exit, focus', rb', order⟩ :=
        deleteFixup_exit focus₄ (.inl rfl) (by rw [blacken_of_black rb.1]; exact rb)
      have notBoth : (decide (rootColor a = .black) && decide (rootColor b = .black)) = false := by
        rw [Bool.and_eq_false_iff, decide_eq_false_iff_not, decide_eq_false_iff_not]
        exact not_and_or.mp both
      refine ⟨T', t', ?_, focus', rb', order.trans (Eq.trans ?_ order₁)⟩
      · rw [← focus₄.root_top] at exit
        have stepped : deleteFixupStep s T k = some (T₃, T₃.root, some k) := by
          simp only [deleteFixupStep, sibling, nearColor, farColor, notBoth, nephew, rotated,
            Bool.false_eq_true, if_false, Option.bind_eq_bind, Option.bind_some, Option.pure_def]
        simp [side, stepped, exit]
      · have inner : (KeyTree.join s t k color₁ (.join s a₂ w₂ data₂ b₂)).inorder =
            (KeyTree.join s t k color₁ (.join s a w .black b)).inorder := by
          rw [← join_opp s _ t, ← join_opp s (.join s a w .black b) t]
          exact inorder_join_congr order₂
        refine inorder_plug_congr (c := c₁) (Eq.trans ?_ inner)
        cases s <;> simp [KeyTree.join, inorder]

end Fixups
end VeaOS.Rtl
