import VeaOS.Rtl.RbBalance

/-! Insertion and deletion of the red-black tree. Their specifications leave the
nodes outside the tree alone, so that several trees can share one memory. -/
namespace VeaOS.Rtl
open Foundation PointerTree Context KeyTree
variable {ι : Type*} [DecidableEq ι]

/-- The insertion puts the new node between the nodes that its comparisons
separate, whatever they are. -/
theorem insertRb_spec {T : RbTree ι} {t : KeyTree ι RbColor} (compare : ι → ι → Int)
    (start : Focus T T .top t) (rb : Rb t) (cached : T.leftmost = t.inorder.head?)
    (absent : new ∉ t.inorder) (enough : t.size < fuel) :
    ∃ T' t', rtlInsertElementRb fuel compare T new = some T' ∧ Focus T' T' .top t' ∧ Rb t' ∧
      t'.inorder = (insertion (fun node => compare new node < 0) t .top).before ++
        new :: (insertion (fun node => compare new node < 0) t .top).after ∧
      T'.leftmost = t'.inorder.head? ∧ ∀ z, z ≠ new → z ∉ t.inorder → Same T T' z := by
  let T₁ : RbTree ι := ((T.setChild .left new none).setChild .right new none).setBalance new .red
  have others : ∀ z, z ≠ new → Same T T₁ z := fun z other =>
    ((same_setChild other).trans (same_setChild other)).trans (same_setBalance other)
  obtain ⟨descended, plugged, hole, outside⟩ := descend_place (fun node => compare new node < 0)
    start absent others rfl (show _ ≤ fuel by omega)
  have side := fun k s => link_insertion (k := k) (s := s) (t := t) (c := .top)
    (fun node => decide (compare new node < 0)) (by simp)
  generalize insertion (fun node => compare new node < 0) t .top = c at *
  have between : c.before ++ c.after = t.inorder := by rw [← plugged, inorder_plug]; rfl
  have depth : c.depth < fuel := by
    have := c.depth_le_length
    rw [length_keys, ← List.length_append, between, length_inorder] at this
    omega
  let T₂ := (T₁.setParent new c.parent).hang c (some new)
  have leaf : Focus T₂ T₂ c (.node .nil new .red .nil) := hole.attach
    outside (by simp [T₁]) (by simp [T₁]) (by simp) (by simp [T₁])
    (fun z other => same_setParent other) rfl
  let T₃ := if c.allLeft then T₂.setLeftmost (some new) else T₂
  have ready : Focus T₃ T₃ c (.node .nil new .red .nil) := by
    simp only [T₃]
    split
    · exact leaf.setLeftmost _
    · exact leaf
  obtain ⟨n, empty, around⟩ := rb_plug (c := c) (t := .nil) (by rwa [plugged])
  obtain rfl : n = 0 := empty
  obtain ⟨T', t', ended, focus, rb', order⟩ := insertFixup_spec ready rfl rfl
    (n := 0) ⟨rfl, rfl, rfl, rfl⟩ around depth
  have nodes : t'.inorder = c.before ++ new :: c.after := by
    rw [order, inorder_plug]
    rfl
  refine ⟨T', t', ?_, focus.rebase, rb', nodes, ?_, ?_⟩
  · have written : ((T.setChild .left new none).setChild .right new none).setBalance new .red = T₁ := rfl
    rw [← ended]
    simp only [rtlInsertElementRb, written, descended, Option.bind_eq_bind, Option.bind_some,
      link_fst]
    congr 1
    cases c with
    | top => rfl
    | frame s y d sib outer =>
      have decided := side y s rfl
      cases s with
      | left =>
        have goes : compare new y < 0 := by simpa using decided
        simp only [link_frame, goes, if_true]
        rfl
      | right =>
        have stays : ¬ compare new y < 0 := by simpa using decided
        simp only [link_frame, stays, if_false]
        rfl
  · rw [focus.leftmost, nodes]
    cases turned : c.allLeft with
    | true => simp [T₃, turned, before_of_allLeft turned]
    | false =>
      obtain ⟨x, rest, split⟩ := List.exists_cons_of_ne_nil (before_of_not_allLeft turned)
      have kept : T₃.leftmost = T.leftmost := by simp [T₃, turned, T₂, T₁]
      rw [kept, cached, ← between, split]
      rfl
  · intro z other outsideT
    have notKey : z ∉ c.keys := fun member =>
      outsideT (plugged ▸ mem_plug.mpr (.inl member))
    have notNew : z ∉ (top.plug t').inorder := by
      rw [plug, order]
      simp [mem_plug, inorder, notKey, other]
    have linked : Same T T₂ z :=
      ((others z other).trans (same_setParent other)).trans (same_hang notKey)
    refine Same.trans ?_ (focus.frame z notNew)
    simp only [T₃]
    split
    · exact linked.trans same_setLeftmost
    · exact linked

/-- The context of `X` when a node of the given colour is gone from above it. -/
def Missing (lost : RbColor) (c : Context ι RbColor) (t : KeyTree ι RbColor) (n : Nat) : Prop :=
  match lost with
  | .black => RbAround c (n + 1) .black
  | .red => rootColor t = .black ∧ RbAround c n .black

/-- What is left of a tree when a node is taken out of it: the place of `X` in
the tree, and whether a black node is missing there. -/
structure RbUnlinked (T : RbTree ι) (c : Context ι RbColor) (l r : KeyTree ι RbColor) (k : ι) (d : RbColor)
    (T' : RbTree ι) (c' : Context ι RbColor) (t' : KeyTree ι RbColor) (lost : RbColor) : Prop where
  focus : Focus T' T' c' t'
  order : (c'.plug t').inorder = (c.plug (.node l k d r)).inorder.erase k
  leftmost : T'.leftmost = T.leftmost
  frame : ∀ z, z ∉ (c.plug (.node l k d r)).inorder → Same T T' z
  shape : Rb (c.plug (.node l k d r)) → ∃ n, RedBlack t' n ∧ Missing lost c' t' n

omit [DecidableEq ι] in
theorem rb_without {c : Context ι RbColor} {child : KeyTree ι RbColor}
    (rb : Rb (c.plug (.join s child k lost .nil))) :
    ∃ n, RedBlack child n ∧ Missing lost c child n := by
  obtain ⟨n, shape, around⟩ := rb_plug rb
  rw [rootColor_join] at around
  cases lost with
  | black =>
    obtain ⟨m, rfl, shape, _⟩ := redBlack_black.mp shape
    exact ⟨m, shape, around⟩
  | red =>
    obtain ⟨shape, _, black, _⟩ := redBlack_red.mp shape
    exact ⟨n, shape, black, around.weaken⟩

omit [DecidableEq ι] in
theorem rbAround_append {inner outer : Context ι RbColor}
    (around : RbAround (inner.append (.frame s k d sib outer)) n color) :
    RbAround (inner.append (.frame s m d sib outer)) n color := by
  induction inner generalizing n color with
  | top => cases d <;> exact around
  | frame s' k' d' sib' rest ih => cases d' with
    | black => exact ⟨around.1, ih around.2⟩
    | red => exact ⟨around.1, around.2.1, around.2.2.1, ih around.2.2.2⟩

theorem transplant_spec {T : RbTree ι} {c : Context ι RbColor} {child : KeyTree ι RbColor}
    (focus : Focus base T c (.join s child k d .nil)) :
    Focus T (rtlRbTransplant T k child.root) c child := by
  have moved : rtlRbTransplant T k child.root = (T.adopt child.root c.parent).hang c child.root := by
    rw [rtlRbTransplant, focus.parent, focus.relink .left _ fun _ _ => rfl, adopt_hang]
  rw [moved]
  exact focus.detach

theorem rbUnlink_successor {T : RbTree ι} {c D : Context ι RbColor} {l sr : KeyTree ι RbColor}
    (focus : Focus base T c (.node l k d (D.plug (.node .nil m e sr)))) (first : D.before = [])
    (full : l.root = some x) (enough : (D.plug (.node .nil m e sr)).size ≤ fuel) :
    ∃ T', rbUnlink fuel T k = some (T', sr.root, (D.append (.frame .right m d l c)).parent, e) ∧
      Promoted T T' c D l sr m d ∧ T'.leftmost = T.leftmost := by
  have known := succession focus first enough
  obtain ⟨r, childR, found⟩ := known.found
  have childL := known.onLeft
  have dataK := focus.balance (s := .left)
  have xm : x ≠ m := fun same => known.notLeft (by rw [full, same])
  rw [full] at childL
  cases D with
  | top =>
    have near : T.parent m = some k := known.aboveSuccessor
    let T₁ := (T.hang c (some m)).setParent m c.parent
    let T₂ := (T₁.setChild .left m (some x)).adopt (some x) (some m)
    refine ⟨T₂.setBalance m d, ?_, ⟨?_, ?_, ?_, ?_, ?_, ?_, ?_, ?_⟩, by simp [T₂, T₁]⟩
    · have linked : T.relink .left c.parent k (some m) = T.hang c (some m) :=
        focus.relink (s := .left) .left (some m) fun _ _ => rfl
      have moved : rtlRbTransplant T k (some m) = T₁ := by
        rw [rtlRbTransplant, known.above, linked]
        rfl
      have read₁ : T₁.child .left k = some x := by simp [T₁, known.keyNotLinked, childL]
      have read₂ : (T₁.setChild .left m (some x)).child .left m = some x := by simp
      have read₃ : ((T₁.setChild .left m (some x)).adopt (some x) (some m)).balance k = d := by
        simp [T₁, dataK]
      simp only [rbUnlink, childL, childR, found, near, if_true, known.successorRight, known.data,
        moved, read₁, read₂, read₃, Option.bind_eq_bind, Option.bind_some, Option.pure_def]
      rfl
    · simp
    · simp [T₂, full]
    · simp [T₂, T₁, known.notLinked, known.successorRight, plug]
    · simp [T₂, T₁, xm]
    · intro z other s
      simp [T₂, T₁, other]
    · intro z other
      by_cases below : sr.root = some z
      · simp [T₂, T₁, other, plug, below, known.storedSuccessor.parent_root below]
      · simp [T₂, T₁, other, plug, below, full]
    · intro z other
      simp [T₂, T₁, other]
    · simp [T₂, T₁]
  | frame s p q sib rest =>
    obtain rfl : s = .left := by
      cases s with
      | left => rfl
      | right => simp [before] at first
    have far : T.parent m = some p := known.aboveSuccessor
    obtain ⟨pk, pm, pc⟩ := known.notBetween p rfl
    have rooted : ((frame .left p q sib rest).plug sr).root = some r :=
      (root_plug_frame _ _).trans (focus.child_far (s := .left) ▸ childR)
    have rm : r ≠ m := fun same => known.notRight (by rw [rooted, same])
    have rk : r ≠ k := fun same => known.keyNotRight (by rw [rooted, same])
    let T₀ := (T.setChild .left p sr.root).adopt sr.root (some p)
    let T₁ := (T₀.setChild .right m (some r)).adopt (some r) (some m)
    let T₂ := (T₁.hang c (some m)).setParent m c.parent
    let T₃ := (T₂.setChild .left m (some x)).adopt (some x) (some m)
    refine ⟨T₃.setBalance m d, ?_, ⟨?_, ?_, ?_, ?_, ?_, ?_, ?_, ?_⟩, by simp [T₃, T₂, T₁, T₀]⟩
    · have moved₀ : rtlRbTransplant T m sr.root = T₀ := by
        simp [rtlRbTransplant, far, relink, known.linked p .left rfl, T₀]
      have read₀ : T₀.child .right k = some r := by simp [T₀, childR]
      have read₁ : (T₀.setChild .right m (some r)).child .right m = some r := by simp
      have linked : T₁.relink .left c.parent k (some m) = T₁.hang c (some m) :=
        focus.relink (s := .left) .left (some m) fun q above => by
          have notP : q ≠ p := fun same => pc (same ▸ above)
          simp [T₁, T₀, notP]
      have moved₁ : rtlRbTransplant T₁ k (some m) = T₂ := by
        have above : T₁.parent k = c.parent := by
          simp [T₁, T₀, rk, known.keyNotBelow, known.above]
        rw [rtlRbTransplant, above, linked]
        rfl
      have read₂ : T₂.child .left k = some x := by
        simp [T₂, T₁, T₀, known.keyNotLinked, Ne.symm pk, childL]
      have read₃ : (T₂.setChild .left m (some x)).child .left m = some x := by simp
      have read₄ : ((T₂.setChild .left m (some x)).adopt (some x) (some m)).balance k = d := by
        simp [T₂, T₁, T₀, dataK]
      have notNear : (some p : Option ι) ≠ some k := by simpa using pk
      simp only [rbUnlink, childL, childR, found, far, notNear, if_false, known.successorRight,
        known.data, moved₀, read₀, read₁, Option.bind_eq_bind, Option.bind_some, Option.pure_def]
      rw [show (T₀.setChild .right m (some r)).adopt (some r) (some m) = T₁ from rfl]
      simp only [moved₁, read₂, read₃, read₄]
      rfl
    · simp
    · simp [T₃, full]
    · simp [T₃, T₂, T₁, known.notLinked, rooted]
    · simp [T₃, T₂, T₁, xm]
    · intro z other s
      simp [T₃, T₂, T₁, T₀, other]
      grind
    · intro z other
      simp [T₃, T₂, T₁, T₀, other, rooted, full]
      grind
    · intro z other
      simp [T₃, T₂, T₁, T₀, other]
    · simp [T₃, T₂, T₁, T₀]

theorem transplant_unlinked {T : RbTree ι} {c : Context ι RbColor} {child : KeyTree ι RbColor}
    (focus : Focus base T c (.join s child k d .nil))
    (shape : KeyTree.join s child k d .nil = .node l k d r) (nodes : child.inorder = l.inorder ++ r.inorder) :
    RbUnlinked T c l r k d (rtlRbTransplant T k child.root) c child d := by
  have moved := transplant_spec focus
  refine ⟨moved.rebase, ?_, moved.leftmost, fun z absent => moved.frame z ?_,
    fun rb => rb_without (by rwa [shape])⟩
  · rw [erase_plug (shape ▸ focus.distinct), inorder_plug, nodes, List.append_assoc]
  · rw [← shape, mem_plug, mem_join] at absent
    rw [mem_plug]
    exact fun member => absent (member.imp_right .inl)

theorem rbUnlink_spec {T : RbTree ι} {c : Context ι RbColor} {l r : KeyTree ι RbColor}
    (focus : Focus base T c (.node l k d r)) (enough : (c.plug (.node l k d r)).size ≤ fuel) :
    ∃ T' c' t' lost, rbUnlink fuel T k = some (T', t'.root, c'.parent, lost) ∧
      RbUnlinked T c l r k d T' c' t' lost := by
  have childL := focus.child_near (s := .left)
  have childR := focus.child_far (s := .left)
  have above := focus.parent (s := .left)
  have data := focus.balance (s := .left)
  rw [Side.opp_left] at childR
  obtain rfl | ⟨lx, x, lz, ly, rfl⟩ := l.eq_nil_or_join .left
  · refine ⟨_, c, r, d, ?_, transplant_unlinked (s := .right) focus rfl rfl⟩
    simp only [rbUnlink, childL, root_nil, childR, above, data, Option.pure_def]
  · obtain rfl | ⟨rx, y, rz, ry, rfl⟩ := r.eq_nil_or_join .left
    · refine ⟨_, c, _, d, ?_, transplant_unlinked (s := .left) focus rfl (List.append_nil _).symm⟩
      simp only [rbUnlink, childL, root_nil, root_join, childR, above, data, Option.pure_def]
    · obtain ⟨D, m, e, sr, shape, first⟩ :=
        exists_first (t := .join .left rx y rz ry) (by simp [KeyTree.join])
      rw [shape] at focus enough ⊢
      have size : (D.plug (.node .nil m e sr)).size ≤ fuel := by
        rw [← length_inorder, inorder_plug, inorder] at enough
        simp only [List.length_append, List.length_cons, length_inorder] at enough
        omega
      obtain ⟨T', done, promoted, leftmost⟩ :=
        rbUnlink_successor focus first (root_join ..) size
      refine ⟨T', _, sr, e, done, promoted.focus (succession focus first size) focus, ?_, leftmost,
        fun z absent => promoted.confined absent, fun rb => ?_⟩
      · rw [plug_append, ← erase_promote first d focus.distinct]
        rfl
      · have whole : Rb ((D.append (.frame .right k d (.join .left lx x lz ly) c)).plug
            (.join .right sr m e .nil)) := by rwa [plug_append]
        obtain ⟨n, shapeSr, around⟩ := rb_without whole
        refine ⟨n, shapeSr, ?_⟩
        cases e with
        | black => exact rbAround_append around
        | red => exact ⟨around.1, rbAround_append around.2⟩

theorem deleteRb_spec {T : RbTree ι} {t : KeyTree ι RbColor} (start : Focus T T .top t) (rb : Rb t)
    (cached : T.leftmost = t.inorder.head?) (present : k ∈ t.inorder) (enough : t.size ≤ fuel) :
    ∃ T' t', rtlDeleteElementRb fuel T k = some T' ∧ Focus T' T' .top t' ∧ Rb t' ∧
      t'.inorder = t.inorder.erase k ∧ T'.leftmost = t'.inorder.head? ∧
      ∀ z, z ∉ t.inorder → Same T T' z := by
  obtain ⟨c, l, d, r, rfl⟩ := exists_of_mem present
  have here : Focus T T c (.node l k d r) := Focus.top_iff.mpr start
  have uncached := uncacheLeftmost_spec here cached (show _ ≤ fuel by omega)
  obtain ⟨T₁, c₁, t₁, lost, unlinked, result⟩ := rbUnlink_spec (here.setLeftmost
    ((c.plug (.node l k d r)).inorder.erase k).head?) (show _ ≤ fuel by omega)
  obtain ⟨n, shape, around⟩ := result.shape rb
  have depth : c₁.depth ≤ fuel := by
    have keys := c₁.depth_le_length
    have erased := List.length_erase_le (a := k) (l := (c.plug (.node l k d r)).inorder)
    rw [← result.order, inorder_plug] at erased
    rw [length_keys] at keys
    simp only [List.length_append, length_inorder] at erased
    omega
  have fixed : ∃ T₂ t', (if lost = .black then rtlRbDeleteFixup fuel T₁ t₁.root c₁.parent
      else some T₁) = some T₂ ∧ Focus T₁ T₂ .top t' ∧ Rb t' ∧ t'.inorder = (c₁.plug t₁).inorder := by
    cases lost with
    | red => exact ⟨T₁, c₁.plug t₁, rfl, Focus.top_iff.mp result.focus,
        RbAround.plug (by rw [around.1]; exact around.2) shape, rfl⟩
    | black =>
      cases black : rootColor t₁ with
      | black => exact deleteFixup_spec result.focus shape black around depth
      | red =>
        obtain ⟨T₂, t', exit, rest⟩ := deleteFixup_exit result.focus (.inr black)
          (RbAround.plug (by rw [rootColor_blacken]; exact around) (shape.blacken_red black))
        exact ⟨T₂, t', exit _ _, rest⟩
  obtain ⟨T₂, t', ended, focus, rb', order⟩ := fixed
  rw [result.order] at order
  have gone : k ∉ t'.inorder := by
    rw [order]
    exact fun member => (start.distinct.mem_erase_iff.mp member).1 rfl
  let T₃ := ((T₂.setChild .left k none).setChild .right k none).setParent k none
  have others : ∀ z, z ≠ k → Same T₂ T₃ z := fun z other =>
    ((same_setChild other).trans (same_setChild other)).trans (same_setParent other)
  refine ⟨T₃, t', ?_, focus.forget gone others rfl, rb', order, ?_, fun z absent => ?_⟩
  · simp only [rtlDeleteElementRb, uncached, unlinked, Option.bind_eq_bind, Option.bind_some,
      Option.pure_def]
    cases lost with
    | black =>
      rw [if_pos rfl] at ended
      rw [if_pos rfl, ended, Option.bind_some]
    | red =>
      rw [if_neg (by simp)] at ended ⊢
      rw [Option.some.inj ended]
  · have kept : T₃.leftmost = T₁.leftmost := focus.leftmost
    rw [kept, result.leftmost, order]
    rfl
  · have other : z ≠ k := fun same => absent (same ▸ present)
    have outside : z ∉ (top.plug t').inorder := by
      rw [plug, order]
      exact fun member => absent (List.mem_of_mem_erase member)
    exact ((same_setLeftmost.trans (result.frame z absent)).trans (focus.frame z outside)).trans
      (others z other)

/-- Every run of insertions of absent nodes and deletions of present ones ends,
in a red-black tree that is linked both ways, holds the nodes inserted and not
deleted in the order of the callback, caches its first node, and is enumerated
from there. -/
theorem rb_tree_runs {compare : ι → ι → Int} (order : TotalPreorder compare) (T₀ : RbTree ι)
    (empty : T₀.root = none) (uncached : T₀.leftmost = none)
    (admitted : liveAfter [] actions = some live) (enough : actions.length ≤ fuel) :
    ∃ T t, execute (rtlInsertElementRb fuel compare) (rtlDeleteElementRb fuel) T₀ actions = some T ∧
      T.root = t.root ∧ T.Stored none t ∧ rootColor t = .black ∧ (∃ n, RedBlack t n) ∧
      InOrder compare live t.inorder ∧ t.inorder.Perm live ∧ t.inorder.Nodup ∧
      T.leftmost = t.inorder.head? ∧
      enumerate (rtlGetNextNodeRb fuel T) live.length T.leftmost = some t.inorder := by
  have start : Represents Rb compare T₀ [] .nil :=
    ⟨⟨trivial, empty, by simp [plug], fun k _ => .refl T₀ k, rfl⟩, ⟨rfl, 0, rfl⟩,
      List.Pairwise.nil, List.Perm.refl [], uncached⟩
  have size : ∀ {T live t}, Represents Rb compare T live t → t.size = live.length :=
    fun represents => by rw [← length_inorder, represents.members.length_eq]
  obtain ⟨T, t, ran, final⟩ := execute_represents (rtlInsertElementRb fuel compare)
    (rtlDeleteElementRb fuel) actions.length
    (fun {T live t node} represents fresh bound => by
      have := size represents
      obtain ⟨_, _, sorted, members⟩ :=
        ordered_place order represents.order represents.members node
      obtain ⟨T', t', done, focus, rb, nodes, cached, _⟩ := insertRb_spec compare represents.focus
        represents.shape represents.leftmost
        (fun member => fresh (represents.members.mem_iff.mp member)) (show _ < fuel by omega)
      rw [← nodes] at sorted members
      exact ⟨T', t', done, focus, rb, sorted, members, cached⟩)
    (fun {T live t node} represents present bound => by
      have := size represents
      obtain ⟨T', t', done, focus, rb, nodes, cached, _⟩ := deleteRb_spec represents.focus
        represents.shape represents.leftmost (represents.members.mem_iff.mpr present)
        (show _ ≤ fuel by omega)
      exact ⟨T', t', done, focus, rb, nodes ▸ represents.order.erase represents.focus.distinct node,
        nodes ▸ represents.members.erase node, cached⟩)
    start admitted (by simp)
  have bound : live.length ≤ actions.length := by simpa using length_liveAfter admitted
  have := size final
  refine ⟨T, t, ran, final.focus.root_top, final.focus.stored, final.shape.1, final.shape.2,
    final.order, final.members, final.focus.distinct, final.leftmost, ?_⟩
  rw [final.leftmost]
  exact final.focus.enumerate (by omega) (by omega)

theorem rb_tree_runs_five : ∃ T t, execute (rtlInsertElementRb 5 fun a b : Nat => (a : Int) - b)
      (rtlDeleteElementRb 5) ⟨fun _ _ => none, fun _ => none, fun _ => .black, none, none⟩
      [.insert 3, .insert 2, .insert 1, .insert 4, .delete 2] = some T ∧
      T.root = t.root ∧ T.Stored none t ∧ rootColor t = .black ∧ (∃ n, RedBlack t n) ∧
      InOrder (fun a b : Nat => (a : Int) - b) [3, 1, 4] t.inorder ∧
      t.inorder.Perm [3, 1, 4] ∧ t.inorder.Nodup ∧ T.leftmost = t.inorder.head? ∧
      enumerate (rtlGetNextNodeRb 5 T) 3 T.leftmost = some t.inorder :=
  rb_tree_runs ⟨fun a b => by omega, fun a b c => by omega⟩ _ rfl rfl (by decide)
    (by decide)

end VeaOS.Rtl
