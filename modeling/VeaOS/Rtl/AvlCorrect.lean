import VeaOS.Rtl.AvlBalance

/-! Insertion and deletion of the AVL tree: each keeps the tree balanced, its
nodes in the order of the callback, its cached first node, and its links. -/
namespace VeaOS.Rtl
open Foundation PointerTree Context KeyTree
variable {ι : Type*}

theorem avl_leaf (new : ι) : Avl (.node .nil new 1 .nil) := by simp [Avl, height]

variable [DecidableEq ι]

theorem rebalance_leaf {T : AvlTree ι} {c : Context ι Int} (leaf : Focus T T c (.node .nil new 1 .nil))
    (avl : Avl (c.plug .nil)) (enough : 2 * c.depth ≤ fuel) :
    ∃ T' t', rebalance fuel T c.parent = some T' ∧ Focus T' T' .top t' ∧ Avl t' ∧
      t'.inorder = c.before ++ new :: c.after ∧ T'.leftmost = T.leftmost := by
  obtain ⟨T', t', ended, focus, avl', order⟩ := rebalance_spec leaf (avl_leaf new) (avl_plug avl).2
    (by simp [height]) (by simp [height]) enough
  refine ⟨T', t', ended, focus.rebase, avl', ?_, focus.leftmost⟩
  rw [order, inorder_plug]
  rfl

/-- Insertion at the place that the comparisons lead to; they need an order only
to keep the cached first node right. -/
theorem insertAvl_spec {T : AvlTree ι} {t : KeyTree ι Int} (compare : ι → ι → Int)
    (start : Focus T T .top t) (avl : Avl t) (first : T.leftmost = t.inorder.head?)
    (absent : new ∉ t.inorder)
    (ordered : t.inorder.Pairwise fun a b =>
      decide (compare new a < 0) = true → decide (compare new b < 0) = true)
    (enough : 2 * t.size ≤ fuel) :
    ∃ T' t', rtlInsertElementAvl fuel compare T new = some T' ∧ Focus T' T' .top t' ∧ Avl t' ∧
      t'.inorder = (insertion (fun node => compare new node < 0) t .top).before ++
        new :: (insertion (fun node => compare new node < 0) t .top).after ∧
      T'.leftmost = t'.inorder.head? := by
  let T₁ : AvlTree ι :=
    (((T.setChild .left new none).setChild .right new none).setParent new none).setBalance new 1
  have others : ∀ z, z ≠ new → Same T T₁ z := fun z other =>
    (((same_setChild other).trans (same_setChild other)).trans (same_setParent other)).trans
      (same_setBalance other)
  have root : T₁.root = t.root := start.root_top
  obtain ⟨descended, plugged, hole, outside⟩ := descend_place (fun node => compare new node < 0)
    start absent others rfl (show _ ≤ fuel by omega)
  obtain ⟨notBefore, inFront⟩ := insertion_separates (fun node => compare new node < 0)
    (c := .top) ordered (by simp [before]) (by simp [after])
  generalize insertion (fun node => compare new node < 0) t .top = c at *
  have between : c.before ++ c.after = t.inorder := by rw [← plugged, inorder_plug]; rfl
  cases c with
  | top =>
    have empty : t = .nil := plugged.symm
    subst t
    have leaf : Focus (T₁.hang .top (some new)) _ .top _ := hole.attach (d := 1) outside
      (by simp [T₁]) (by simp [T₁]) (by simp [T₁]) (by simp [T₁]) (fun z _ => .refl T₁ z) rfl
    refine ⟨(T₁.setRoot (some new)).setLeftmost (some new), _, ?_, leaf.setLeftmost _, avl_leaf new,
      rfl, rfl⟩
    have noRoot : T.root = none := root
    simp [rtlInsertElementAvl, noRoot, T₁]
  | frame side p d sib outer =>
    have rooted : ∃ r, t.root = some r := by
      rw [← plugged]
      exact exists_root_plug
    obtain ⟨r, rooted⟩ := rooted
    have leaf : Focus ((T₁.setParent new (some p)).hang (.frame side p d sib outer) (some new)) _ _ _ :=
      hole.attach (d := 1) outside (by simp [T₁]) (by simp [T₁]) (by simp) (by simp [T₁])
        (fun z other => same_setParent other) rfl
    obtain ⟨leftmost, rest, nodes⟩ :=
      List.exists_cons_of_ne_nil (List.ne_nil_of_mem (mem_inorder_of_root rooted))
    have cached : T.leftmost = some leftmost := by rw [first, nodes, List.head?_cons]
    have depth : 2 * (frame side p d sib outer).depth ≤ fuel := by
      have := depth_le_length (.frame side p d sib outer)
      rw [length_keys, ← List.length_append, between, length_inorder] at this
      omega
    obtain ⟨T', t', ended, focus, avl', order, leftmost'⟩ := rebalance_leaf
      (leaf.setLeftmost (some (if compare new leftmost < 0 then new else leftmost)))
      (plugged ▸ avl) depth
    refine ⟨T', t', ?_, focus, avl', order, ?_⟩
    · have noLink : (((T.setChild .left new none).setChild .right new none).setParent new
          none).setBalance new 1 = T₁ := rfl
      rw [rooted] at root
      rw [root] at descended
      have cached₁ : T₁.leftmost = some leftmost := cached
      simp only [rtlInsertElementAvl, noLink, root, descended, link, Option.bind_eq_bind,
        Option.bind_some, setChild_leftmost, setParent_leftmost, cached₁, decide_eq_true_eq]
      rw [← ended, parent_frame]
      split
      · rfl
      · rw [← cached₁]
        rfl
    · rw [leftmost', order, setLeftmost_leftmost]
      exact (head_insertion notBefore inFront (by rw [between, nodes, List.head?_cons])).symm

theorem insert_represents {compare : ι → ι → Int} (order : TotalPreorder compare)
    (start : Represents Avl compare T live t) (fresh : new ∉ live) (enough : 2 * live.length ≤ fuel) :
    ∃ T' t', rtlInsertElementAvl fuel compare T new = some T' ∧
      Represents Avl compare T' (live ++ [new]) t' := by
  have absent : new ∉ t.inorder := fun member => fresh (start.members.mem_iff.mp member)
  have size : t.size = live.length := by rw [← length_inorder, start.members.length_eq]
  obtain ⟨_, _, sorted, members⟩ := ordered_place order start.order start.members new
  obtain ⟨T', t', done, focus, avl, nodes, cached⟩ := insertAvl_spec compare start.focus start.shape
    start.leftmost absent (start.order.goesLeft order new) (show _ ≤ fuel by omega)
  exact ⟨T', t', done, focus, avl, nodes ▸ sorted, nodes ▸ members, cached⟩

omit [DecidableEq ι] in
theorem avlAround_append {inner outer : Context ι Int}
    (around : AvlAround (inner.append (.frame s k d sib outer)) h) :
    AvlAround (inner.append (.frame s m e sib outer)) h := by
  induction inner generalizing h with
  | top => exact around
  | frame s' k' d' sib' rest ih => exact ⟨around.1, around.2.1, around.2.2.1, ih around.2.2.2⟩

/-- What is left of a tree when a node is taken out of it: the place where the
heights are to be recomputed. -/
structure Unlinked (T : AvlTree ι) (c : Context ι Int) (l r : KeyTree ι Int) (k : ι) (d : Int)
    (T' : AvlTree ι) (c' : Context ι Int) (t' : KeyTree ι Int) : Prop where
  focus : Focus T' T' c' t'
  order : (c'.plug t').inorder = (c.plug (.node l k d r)).inorder.erase k
  leftmost : T'.leftmost = T.leftmost
  avl : Avl (c.plug (.node l k d r)) → Avl t' ∧ AvlAround c' (1 + height t')

theorem unlink_child {T : AvlTree ι} {c : Context ι Int} {child : KeyTree ι Int}
    (focus : Focus base T c (.join s child k d .nil)) :
    ∃ T', (T.adopt child.root c.parent).relink .left c.parent k child.root = T' ∧
      Focus T' T' c child ∧ T'.leftmost = T.leftmost ∧
      (Avl (c.plug (.join s child k d .nil)) → Avl child ∧ AvlAround c (1 + height child)) := by
  have detached := focus.detach
  refine ⟨_, ?_, detached.rebase, detached.leftmost, fun avl => ?_⟩
  · rw [relink_adopt, focus.relink .left _ fun _ _ => rfl, adopt_hang]
  · obtain ⟨joined, above⟩ := avl_plug avl
    have nonneg := height_nonneg child
    rw [height_join, height_nil, Int.max_eq_left nonneg] at above
    exact ⟨(avl_join.mp joined).2.2.2.1, above⟩

theorem unlink_successor {T : AvlTree ι} {c D : Context ι Int} {l sr : KeyTree ι Int}
    (focus : Focus base T c (.node l k d (D.plug (.node .nil m e sr)))) (first : D.before = [])
    (full : l.root = some x) (enough : (D.plug (.node .nil m e sr)).size ≤ fuel) :
    ∃ T', avlUnlink fuel T k = some (T', (D.append (.frame .right m e l c)).parent) ∧
      Focus T' T' (D.append (.frame .right m e l c)) sr ∧ T'.leftmost = T.leftmost := by
  have known := succession focus first enough
  obtain ⟨r, childR, found⟩ := known.found
  have childL := known.onLeft
  have xm : x ≠ m := fun same => known.notLeft (by rw [full, same])
  have notAbove : ∀ p, c.parent = some p → p ≠ m := fun p above same => known.notAbove (same ▸ above)
  rw [full] at childL
  cases D with
  | top =>
    have near : T.parent m = some k := known.aboveSuccessor
    let T₁ := ((T.setParent m c.parent).setChild .left m (some x)).adopt (some x) (some m)
    refine ⟨T₁.hang c (some m), ?_, Promoted.focus ⟨?_, ?_, ?_, ?_, ?_, ?_, ?_, ?_⟩ known focus,
      by simp [T₁]⟩
    · have linked : T₁.relink .left c.parent k (some m) = T₁.hang c (some m) :=
        focus.relink (s := .left) .left (some m) fun p above => by simp [T₁, notAbove p above]
      simp only [avlUnlink, childL, childR, found, near, known.above, ne_eq, not_true_eq_false,
        if_false, Option.bind_eq_bind, Option.bind_some, Option.pure_def, setChild_child,
        setParent_child, known.other, and_false, linked, T₁]
      rfl
    · simp [T₁, known.data]
    · simp [T₁, full, known.notLinked]
    · simp [T₁, known.notLinked, known.successorRight, plug]
    · simp [T₁, xm]
    · intro z other s
      simp [T₁, other]
    · intro z other
      by_cases below : sr.root = some z
      · simp [T₁, other, plug, below, known.storedSuccessor.parent_root below]
      · simp [T₁, other, plug, below, full]
    · intro z other
      simp [T₁]
    · simp [T₁]
  | frame s p q sib rest =>
    obtain rfl : s = .left := by
      cases s with
      | left => rfl
      | right => simp [before] at first
    have far : T.parent m = some p := known.aboveSuccessor
    obtain ⟨pk, pm, pc⟩ := known.notBetween p rfl
    have rooted : ((frame .left p q sib rest).plug sr).root = some r :=
      (root_plug_frame _ _).trans (focus.child_far (s := .left) ▸ childR)
    have rm : r ≠ m := fun same => known.notRight (by rw [rooted, same])
    let T₁ := ((((T.setChild .left p sr.root).adopt sr.root (some p)).setChild .right m (some r)).adopt
      (some r) (some m)).setParent m c.parent
    let T₂ := (T₁.setChild .left m (some x)).adopt (some x) (some m)
    refine ⟨T₂.hang c (some m), ?_, Promoted.focus ⟨?_, ?_, ?_, ?_, ?_, ?_, ?_, ?_⟩ known focus,
      by simp [T₂, T₁]⟩
    · have linked : T₂.relink .left c.parent k (some m) = T₂.hang c (some m) :=
        focus.relink (s := .left) .left (some m) fun q above => by
          have other : q ≠ p := fun same => pc (same ▸ above)
          simp [T₂, T₁, notAbove q above, other]
      have read₁ : ((T.setChild .left p sr.root).adopt sr.root (some p)).child .right k = some r := by
        simp [childR]
      have read₂ : (((T.setChild .left p sr.root).adopt sr.root (some p)).setChild .right m
          (some r)).child .right k = some r := by simp [childR, known.other]
      have read₃ : T₁.child .left k = some x := by simp [T₁, childL, Ne.symm pk]
      have read₄ : (T₁.setChild .left m (some x)).child .left k = some x := by
        simp [read₃, known.other]
      simp only [T₁] at read₃ read₄
      simp only [avlUnlink, childL, childR, found, far, known.above, known.successorRight, ne_eq, pk,
        not_false_eq_true, if_true, Option.bind_eq_bind, Option.bind_some, Option.pure_def,
        read₁, read₂, read₃, read₄]
      rw [← linked]
      rfl
    · simp [T₂, T₁, known.data]
    · simp [T₂, T₁, full, known.notLinked]
    · simp [T₂, T₁, known.notLinked, rooted]
    · simp [T₂, T₁, xm]
    · intro z other s
      simp [T₂, T₁, other]
      grind
    · intro z other
      simp [T₂, T₁, other, rooted, full]
      grind
    · intro z other
      simp [T₂, T₁]
    · simp [T₂, T₁]

theorem unlink_spec {T : AvlTree ι} {c : Context ι Int} {l r : KeyTree ι Int}
    (focus : Focus base T c (.node l k d r)) (enough : (c.plug (.node l k d r)).size ≤ fuel) :
    ∃ T' c' t', avlUnlink fuel T k = some (T', c'.parent) ∧ Unlinked T c l r k d T' c' t' := by
  have childL := focus.child_near (s := .left)
  have childR := focus.child_far (s := .left)
  have above := focus.parent (s := .left)
  rw [Side.opp_left] at childR
  have erased := erase_plug focus.distinct
  obtain rfl | ⟨lx, x, lz, ly, rfl⟩ := l.eq_nil_or_join .left
  · obtain ⟨T', linked, focus', leftmost, avl⟩ := unlink_child (s := .right) focus
    rw [root_nil] at childL
    refine ⟨T', c, r, ?_, focus', by rw [erased, inorder_plug]; rfl, leftmost, avl⟩
    simp only [avlUnlink, childL, childR, above, if_true, linked, Option.pure_def]
  · obtain rfl | ⟨rx, y, rz, ry, rfl⟩ := r.eq_nil_or_join .left
    · obtain ⟨T', linked, focus', leftmost, avl⟩ := unlink_child (s := .left) focus
      rw [root_join] at childL
      rw [root_join] at linked
      refine ⟨T', c, _, ?_, focus', by rw [erased, inorder_plug]; rfl, leftmost, avl⟩
      simp only [avlUnlink, childL, childR, above, root_nil, reduceCtorEq, if_false, linked,
        Option.pure_def]
    · obtain ⟨D, m, e, sr, shape, first⟩ :=
        exists_first (t := .join .left rx y rz ry) (by simp [KeyTree.join])
      rw [shape] at focus enough ⊢
      have size : (D.plug (.node .nil m e sr)).size ≤ fuel := by
        rw [← length_inorder, inorder_plug, inorder] at enough
        simp only [List.length_append, List.length_cons, length_inorder] at enough
        omega
      obtain ⟨T', done, focus', leftmost⟩ :=
        unlink_successor focus first (root_join ..) size
      refine ⟨T', _, sr, done, focus', ?_, leftmost, fun avl => ?_⟩
      · rw [plug_append, ← erase_promote first e focus.distinct]
        rfl
      · have whole : Avl ((D.append (.frame .right k d (.join .left lx x lz ly) c)).plug
            (.node .nil m e sr)) := by rwa [plug_append]
        obtain ⟨successor, around⟩ := avl_plug whole
        have nonneg := height_nonneg sr
        rw [height, height_nil, Int.max_eq_right nonneg] at around
        exact ⟨successor.2.2.2.2, avlAround_append around⟩

theorem deleteAvl_spec {T : AvlTree ι} {t : KeyTree ι Int} (start : Focus T T .top t) (avl : Avl t)
    (first : T.leftmost = t.inorder.head?) (present : k ∈ t.inorder) (enough : 2 * t.size ≤ fuel) :
    ∃ T' t', rtlDeleteElementAvl fuel T k = some T' ∧ Focus T' T' .top t' ∧ Avl t' ∧
      t'.inorder = t.inorder.erase k ∧ T'.leftmost = t'.inorder.head? := by
  obtain ⟨c, l, d, r, rfl⟩ := exists_of_mem present
  have here : Focus T T c (.node l k d r) := Focus.top_iff.mpr start
  have uncached := uncacheLeftmost_spec here first (show _ ≤ fuel by omega)
  obtain ⟨T₁, c', t', unlinked, result⟩ := unlink_spec (here.setLeftmost
    ((c.plug (.node l k d r)).inorder.erase k).head?) (show _ ≤ fuel by omega)
  obtain ⟨avl₀, around⟩ := result.avl avl
  have depth : 2 * c'.depth ≤ fuel := by
    have keys := c'.depth_le_length
    have erased := List.length_erase_le (a := k) (l := (c.plug (.node l k d r)).inorder)
    rw [← result.order, inorder_plug] at erased
    rw [length_keys] at keys
    simp only [List.length_append, length_inorder] at erased
    omega
  obtain ⟨T', t₁, ended, focus, avl₁, order⟩ :=
    rebalance_spec result.focus avl₀ around (by omega) (by omega) depth
  rw [result.order] at order
  refine ⟨T', t₁, ?_, focus.rebase, avl₁, order, ?_⟩
  · have rooted : T.root ≠ none := by
      rw [start.root_top, ne_eq, root_eq_none]
      intro empty
      rw [empty] at present
      cases present
    simp only [rtlDeleteElementAvl, rooted, if_false, uncached, unlinked, Option.bind_eq_bind,
      Option.bind_some, ended]
  · rw [focus.leftmost, result.leftmost, order]
    rfl

theorem delete_represents {compare : ι → ι → Int} (start : Represents Avl compare T live t)
    (present : k ∈ live) (enough : 2 * live.length ≤ fuel) :
    ∃ T' t', rtlDeleteElementAvl fuel T k = some T' ∧
      Represents Avl compare T' (live.erase k) t' := by
  have size : t.size = live.length := by rw [← length_inorder, start.members.length_eq]
  obtain ⟨T', t', done, focus, avl, order, cached⟩ := deleteAvl_spec start.focus start.shape
    start.leftmost (start.members.mem_iff.mpr present) (show _ ≤ fuel by omega)
  exact ⟨T', t', done, focus, avl, order ▸ start.order.erase start.focus.distinct k,
    order ▸ start.members.erase k, cached⟩

/-- Every run of insertions of absent nodes and deletions of present ones ends,
in a balanced tree that is linked both ways, holds the nodes inserted and not
deleted in the order of the callback and of their insertion, caches its first
node, and is enumerated from there. -/
theorem avl_tree_runs {compare : ι → ι → Int} (order : TotalPreorder compare) (T₀ : AvlTree ι)
    (empty : T₀.root = none) (uncached : T₀.leftmost = none)
    (admitted : liveAfter [] actions = some live) (enough : 2 * actions.length ≤ fuel) :
    ∃ T t, execute (rtlInsertElementAvl fuel compare) (rtlDeleteElementAvl fuel) T₀ actions = some T ∧
      T.root = t.root ∧ T.Stored none t ∧ Avl t ∧ InOrder compare live t.inorder ∧
      t.inorder.Perm live ∧ t.inorder.Nodup ∧ T.leftmost = t.inorder.head? ∧
      (T.leftmost = none ↔ live = []) ∧
      enumerate (rtlGetNextNodeAvl fuel T) live.length T.leftmost = some t.inorder := by
  have start : Represents Avl compare T₀ [] .nil :=
    ⟨⟨trivial, empty, by simp [plug], fun k _ => .refl T₀ k, rfl⟩, trivial, List.Pairwise.nil,
      List.Perm.refl [], uncached⟩
  obtain ⟨T, t, ran, final⟩ := execute_represents (rtlInsertElementAvl fuel compare)
    (rtlDeleteElementAvl fuel) actions.length
    (fun represents fresh bound => insert_represents order represents fresh (by omega))
    (fun represents present bound => delete_represents represents present (by omega))
    start admitted (by simp)
  have size : t.size = live.length := by rw [← length_inorder, final.members.length_eq]
  have bound : live.length ≤ actions.length := by
    have := length_liveAfter admitted
    simpa using this
  refine ⟨T, t, ran, final.focus.root_top, final.focus.stored, final.shape, final.order,
    final.members, final.focus.distinct, final.leftmost, ?_, ?_⟩
  · rw [final.leftmost, List.head?_eq_none_iff]
    exact ⟨fun none => (none ▸ final.members).nil_eq.symm, fun none => (none ▸ final.members).eq_nil⟩
  · rw [final.leftmost]
    exact final.focus.enumerate (by omega) (by omega)

theorem avl_tree_runs_five : ∃ T t, execute (rtlInsertElementAvl 10 fun a b : Nat => (a : Int) - b)
      (rtlDeleteElementAvl 10) ⟨fun _ _ => none, fun _ => none, fun _ => 0, none, none⟩
      [.insert 3, .insert 2, .insert 1, .insert 4, .delete 2] = some T ∧
      T.root = t.root ∧ T.Stored none t ∧ Avl t ∧
      InOrder (fun a b : Nat => (a : Int) - b) [3, 1, 4] t.inorder ∧
      t.inorder.Perm [3, 1, 4] ∧ t.inorder.Nodup ∧ T.leftmost = t.inorder.head? ∧
      (T.leftmost = none ↔ [3, 1, 4] = []) ∧
      enumerate (rtlGetNextNodeAvl 10 T) 3 T.leftmost = some t.inorder :=
  avl_tree_runs ⟨fun a b => by omega, fun a b c => by omega⟩ _ rfl rfl (by decide)
    (by decide)

end VeaOS.Rtl
