import VeaOS.Mm.VadRuns

/-! The window of the system. The search for a gap is first fit as long as every
range lies in the window; the address behind the last range, and the limit that
is tested in 32 bits, decide the rest. -/
namespace VeaOS.Mm
open Foundation PointerTree Rtl
variable {Area : Type}

/-- A search tree of disjoint ranges, of any shape. -/
structure VadTree (σ : AddressSpace Area) (t : KeyTree Nat Int) : Prop where
  focus : Focus σ.mmKernelVadTree σ.mmKernelVadTree .top t
  leftmost : σ.mmKernelVadTree.leftmost = t.inorder.head?
  sorted : t.inorder.Pairwise fun a b => σ.first a < σ.first b
  proper : ∀ v ∈ t.inorder, σ.first v ≤ σ.last v
  disjoint : Disjoint σ

/-- The ranges lie between 0xC1000000 and 0xFFC00000. -/
def InWindow (σ : AddressSpace Area) (nodes : List Nat) : Prop :=
  ∀ v ∈ nodes, 0xC1000 ≤ σ.first v ∧ σ.last v < 0xFFC00

/-- The lowest gap from the first page of the window on. -/
def LowestGap (σ : AddressSpace Area) (nodes : List Nat) (pages p : Nat) : Prop :=
  (0xC1000 ≤ p ∧ Gap σ nodes pages p) ∧ ∀ p', 0xC1000 ≤ p' → Gap σ nodes pages p' → p ≤ p'

section FirstFit
variable {σ : AddressSpace Area} {t : KeyTree Nat Int}

theorem VadTree.ordered (tree : VadTree σ t) : t.inorder.Pairwise fun a b => σ.last a < σ.first b := by
  refine tree.sorted.imp_of_mem fun {a b} inA inB less => ?_
  by_contra overlaps
  have other : a ≠ b := by
    rintro rfl
    omega
  have proper := tree.proper b inB
  exact tree.disjoint a b (tree.focus.reaches_iff.mpr inA) (tree.focus.reaches_iff.mpr inB) other (σ.first b)
    ⟨by omega, by omega, Nat.le_refl _, proper⟩

/-- The search ends at the lowest gap; where there is none, at the page behind the last
range, whose address is free. -/
theorem first_fit_gap (tree : VadTree σ t) (window : InWindow σ t.inorder) (enough : t.size ≤ fuel)
    (pages : BitVec 32) (nonzero : pages ≠ 0) :
    ∃ va page, mmpFindFreeVirtualGap fuel σ pages fuel σ.mmKernelVadTree.leftmost (startingKva >>> 12) =
        some (va, page) ∧
      (va ≠ 0 → ∃ p, va.toNat = p * 4096 ∧ LowestGap σ t.inorder pages.toNat p) ∧
      (va = 0 ↔ ¬ ∃ p, 0xC1000 ≤ p ∧ Gap σ t.inorder pages.toNat p) ∧
      (va = 0 → (t.inorder = [] ∧ page.toNat = 0xC1000 ∨ ∃ v ∈ t.inorder, page.toNat = σ.last v + 1) ∧
        (page <<< 12).toNat = page.toNat * 4096 ∧ ∀ v ∈ t.inorder, σ.last v < page.toNat) := by
  have positive : 0 < pages.toNat := by
    have : pages.toNat ≠ 0 := fun zero => nonzero (BitVec.eq_of_toNat_eq zero)
    omega
  have start : (startingKva >>> 12).toNat = 0xC1000 := rfl
  obtain ⟨va, page, found, forward, result⟩ := gap_spec fuel (startingKva >>> 12) tree.focus tree.ordered
    (fun v member => by
      have := tree.proper v member
      have := window v member
      omega)
    (show t.inorder = [] ++ t.inorder from rfl) enough (by rwa [KeyTree.length_inorder]) positive
    (fun v => (absurd · List.not_mem_nil)) (fun v member => (window v member).1)
  rw [tree.leftmost]
  refine ⟨va, page, found, ?_⟩
  rw [start] at result forward
  have whole : page.toNat < 0x100000 → (page <<< 12).toNat = page.toNat * 4096 := fun small => by
    rw [toNat_shiftLeft_page]
    omega
  rcases result with ⟨rfl, gap, lowest⟩ | ⟨rfl, all, reached, nowhere⟩
  · have small : page.toNat < 0x100000 := by
      obtain ⟨v, member, fits⟩ := gap.1
      have := tree.proper v member
      have := window v member
      omega
    have nonzero : page <<< 12 ≠ 0 := fun zero => by
      have := whole small
      rw [zero] at this
      simp at this
      omega
    refine ⟨fun _ => ⟨page.toNat, whole small, ⟨forward, gap⟩, lowest⟩, ?_, fun zero => absurd zero nonzero⟩
    exact iff_of_false nonzero fun none => none ⟨_, forward, gap⟩
  · refine ⟨fun nonzero => absurd rfl nonzero, ?_, fun _ => ?_⟩
    · exact iff_of_true rfl fun ⟨p, later, gap⟩ => nowhere p later gap
    · rcases reached with same | ⟨v, member, same⟩
      · have empty : t.inorder = [] := by
          rw [List.eq_nil_iff_forall_not_mem]
          intro v member
          have := all v member
          have := (window v member).1
          have := tree.proper v member
          rw [same, start] at *
          omega
        have reached : page.toNat = 0xC1000 := by rw [same, start]
        exact ⟨.inl ⟨empty, reached⟩, whole (by omega), all⟩
      · have := (window v member).2
        exact ⟨.inr ⟨v, member, same⟩, whole (by omega), all⟩

end FirstFit

/-- The second range hangs on the right of the first. -/
def twoRanges (s e s' e' : BitVec 32) : AddressSpace Unit where
  mmKernelVadTree := ⟨fun side v => if side = .right ∧ v = 0 then some 1 else none,
    fun v => if v = 1 then some 0 else none, fun v => if v = 0 then 2 else 1, some 0, some 0⟩
  vad v := if v = 0 then ⟨s, e, none, 0, 0⟩ else ⟨s', e', none, 0, 0⟩
  mmVadFreeList := []
  obtained := 2

section TwoRanges
variable {s e s' e' : BitVec 32}

theorem focus_twoRanges : Focus (twoRanges s e s' e').mmKernelVadTree (twoRanges s e s' e').mmKernelVadTree .top
    (.node .nil 0 2 (.node .nil 1 1 .nil)) :=
  ⟨⟨rfl, rfl, rfl, rfl, trivial, rfl, rfl, rfl, rfl, trivial, trivial⟩, rfl, show [0, 1].Nodup by decide,
    fun k _ => .refl _ k, rfl⟩

theorem ranges_twoRanges (first : s.toNat ≤ e.toNat) (order : e.toNat < s'.toNat) (second : s'.toNat ≤ e'.toNat)
    (high : e'.toNat < 0x100000) : Ranges (twoRanges s e s' e') (.node .nil 0 2 (.node .nil 1 1 .nil)) := by
  refine ⟨focus_twoRanges, ⟨rfl, by decide, by decide, trivial, rfl, by decide, by decide, trivial, trivial⟩, rfl, ?_,
    fun v member => ?_, show [0, 1].Nodup by decide, show ∀ v ∈ [0, 1], v < 2 by decide⟩
  · exact List.pairwise_pair.mpr order
  · rcases List.mem_pair.mp member with rfl | rfl
    · change s.toNat < _ ∧ s.toNat ≤ e.toNat + 1 ∧ e.toNat < _
      omega
    · change s'.toNat < _ ∧ s'.toNat ≤ e'.toNat + 1 ∧ e'.toNat < _
      omega

theorem vadTree_twoRanges (ranges : Ranges (twoRanges s e s' e') (.node .nil 0 2 (.node .nil 1 1 .nil)))
    (first : s.toNat ≤ e.toNat) (second : s'.toNat ≤ e'.toNat) :
    VadTree (twoRanges s e s' e') (.node .nil 0 2 (.node .nil 1 1 .nil)) := by
  have proper : ∀ v ∈ [0, 1], (twoRanges s e s' e').first v ≤ (twoRanges s e s' e').last v :=
    List.forall_mem_cons.mpr ⟨first, List.forall_mem_singleton.mpr second⟩
  refine ⟨ranges.focus, rfl, ranges.ordered.imp_of_mem fun {a b} memberA _ before => ?_, proper, ranges.disjoint⟩
  have := proper a memberA
  omega

end TwoRanges

/-- Two pages lie between the ranges, and one in front of them. -/
theorem first_fit_gap_between : ∃ va page, mmpFindFreeVirtualGap 2 (twoRanges 0xC1001 0xC1003 0xC1006 0xC1006) 2 2
        (some 0) (startingKva >>> 12) = some (va, page) ∧
      (va ≠ 0 → ∃ p, va.toNat = p * 4096 ∧ LowestGap (twoRanges 0xC1001 0xC1003 0xC1006 0xC1006) [0, 1] 2 p) ∧ va ≠ 0 := by
  have ranges : Ranges (twoRanges 0xC1001 0xC1003 0xC1006 0xC1006) _ :=
    ranges_twoRanges (by decide) (by decide) (by decide) (by decide)
  obtain ⟨va, page, found, lowest, none_, -⟩ := first_fit_gap (vadTree_twoRanges ranges (by decide) (by decide))
    (show ∀ v ∈ [0, 1], _ by decide) (Nat.le_refl 2) 2 (by decide)
  refine ⟨va, page, found, lowest, fun zero => none_.mp zero ⟨0xC1004, by decide, ?_⟩⟩
  exact ⟨⟨1, by decide, by decide⟩, show ∀ v ∈ [0, 1], _ by decide⟩

/-- Some pages of the window are free and in a row. -/
def WindowFits (σ : AddressSpace Area) (nodes : List Nat) (pages : Nat) : Prop :=
  ∃ p, 0xC1000 ≤ p ∧ p + pages ≤ 0xFFC00 ∧ ∀ v ∈ nodes, σ.last v < p ∨ p + pages ≤ σ.first v

/-- The range that is returned lies in the window, its end without wrapping; without a range
the tree is as it was, and so it is when no pages of the window fit. -/
structure RangeSound (σ σ' : AddressSpace Area) (nodes : List Nat) (pages : Nat) (va : BitVec 32) : Prop where
  window : va ≠ 0 → 0xC1000000 ≤ va.toNat ∧ va.toNat + pages * 4096 ≤ 0xFFC00000
  failed : va = 0 → σ'.mmKernelVadTree = σ.mmKernelVadTree ∧ ∀ v ∈ nodes, σ'.vad v = σ.vad v
  full : ¬ WindowFits σ nodes pages → va = 0

/-- A range below the window ends the search at once, with the first page of the window. Where
there is none, the pages fit in front of a range or before the end of the address space. -/
def SearchStaysInside (σ : AddressSpace Area) (nodes : List Nat) (pages : Nat) : Prop :=
  0 < pages → pages ≤ 0x3EC00 →
    ((∃ v ∈ nodes, σ.first v < 0xC1000) → pages = 0x3EC00 ∨ WindowFits σ nodes pages) ∧
    ((∀ v ∈ nodes, 0xC1000 ≤ σ.first v) → (∃ p, 0xC1000 ≤ p ∧ Gap σ nodes pages p) ∨
      ∀ v ∈ nodes, σ.last v + 1 + pages < 0x100000)

/-- What the search chooses: the first page of the window, a gap, or the page behind the last range. -/
def ChosenPlace (σ : AddressSpace Area) (nodes : List Nat) (pages : Nat) (va : BitVec 32) : Prop :=
  va.toNat = 0xC1000000 ∧ (nodes = [] ∨ ∃ v ∈ nodes, σ.first v < 0xC1000) ∨
    (∀ v ∈ nodes, 0xC1000 ≤ σ.first v) ∧
      ((∃ p, 0xC1000 ≤ p ∧ Gap σ nodes pages p ∧ va.toNat = p * 4096) ∨
        (∀ p, 0xC1000 ≤ p → ¬ Gap σ nodes pages p) ∧
          ∃ v ∈ nodes, (∀ w ∈ nodes, σ.last w ≤ σ.last v) ∧ va.toNat = (σ.last v + 1) * 4096 % 0x100000000)

section Bounds
variable {σ σ' : AddressSpace Area} {t : KeyTree Nat Int}

theorem Ranges.insertAny (ranges : Ranges σ t) (outside : new ∉ t.inorder ++ σ.mmVadFreeList)
    (vad : MmVad Area) (enough : 2 * t.size ≤ fuel) :
    ∃ σ', insertVad fuel (σ.setVad new vad) new = some σ' ∧ σ'.mmKernelVadTree.Reaches new := by
  obtain ⟨written, others⟩ := ranges.write outside vad
  have goesLeft : ∀ v, decide (mmpCompareVad (σ.setVad new vad) new v < 0) = true ↔
      (σ.setVad new vad).first new < (σ.setVad new vad).first v := by
    intro v
    simp only [mmpCompareVad, decide_eq_true_eq, AddressSpace.first, BitVec.lt_def, gt_iff_lt]
    split
    · next less => simp [less]
    · next notLess => split <;> simp [notLess]
  have sorted : t.inorder.Pairwise fun a b =>
      decide (mmpCompareVad (σ.setVad new vad) new a < 0) = true →
        decide (mmpCompareVad (σ.setVad new vad) new b < 0) = true := by
    refine written.ordered.imp_of_mem fun {a b} inA inB before => ?_
    rw [goesLeft, goesLeft]
    have := written.bounds a inA
    omega
  have absent : new ∉ t.inorder := fun member => outside (List.mem_append_left _ member)
  obtain ⟨T, t', inserted, focus, _, order, _⟩ := insertAvl_spec (mmpCompareVad (σ.setVad new vad)) written.focus
    written.avl written.leftmost absent sorted enough
  refine ⟨{ σ.setVad new vad with mmKernelVadTree := T }, ?_, focus.reaches_iff.mpr ?_⟩
  · simp only [insertVad, inserted, Option.bind_eq_bind, Option.bind_some, Option.pure_def]
  · rw [order]
    exact List.mem_append_right _ List.mem_cons_self

theorem choose_cases (ranges : Ranges σ t) (positive : 0 < pages.toNat) (bounded : pages.toNat ≤ 0x3EC00)
    (enough : t.size ≤ fuel) : ∃ va, chooseVa fuel σ pages = some va ∧
      ChosenPlace σ t.inorder pages.toNat va := by
  rcases choose_search ranges positive bounded enough with
    ⟨va, chosen, first, some_⟩ | ⟨⟨k, memberK⟩, above, va, page, chosen, forward, result⟩
  · exact ⟨va, chosen, .inl ⟨first, some_⟩⟩
  · refine ⟨_, chosen, .inr ⟨above, ?_⟩⟩
    rcases result with ⟨rfl, gap⟩ | ⟨rfl, all, reached, nowhere⟩
    · left
      have small : page.toNat < 0x100000 := by
        obtain ⟨v, member, fits⟩ := gap.1
        have := ranges.bounds v member
        omega
      have whole : (page <<< 12).toNat = page.toNat * 4096 := by
        rw [toNat_shiftLeft_page]
        omega
      have chosenToo : (if page <<< 12 = 0 then page <<< 12 else page <<< 12) = page <<< 12 := ite_self _
      exact ⟨page.toNat, forward, gap, by rw [chosenToo, whole]⟩
    · right
      refine ⟨nowhere, ?_⟩
      rw [if_pos rfl, toNat_shiftLeft_page]
      obtain ⟨v, member, same⟩ : ∃ v ∈ t.inorder, page.toNat = σ.last v + 1 := by
        rcases reached with same | found
        · have := all k memberK
          have := above k memberK
          have := ranges.bounds k memberK
          exact ⟨k, memberK, by omega⟩
        · exact found
      refine ⟨v, member, fun w memberW => ?_, by rw [same]⟩
      have := all w memberW
      omega

theorem WindowFits.congr (fits : WindowFits σ nodes pages) (vads : ∀ v ∈ nodes, σ'.vad v = σ.vad v) :
    WindowFits σ' nodes pages := by
  obtain ⟨p, low, high, apart⟩ := fits
  refine ⟨p, low, high, fun v member => ?_⟩
  rw [AddressSpace.first, AddressSpace.last, vads v member]
  exact apart v member

theorem Gap.congr (gap : Gap σ nodes pages p) (vads : ∀ v ∈ nodes, σ'.vad v = σ.vad v) :
    Gap σ' nodes pages p := by
  obtain ⟨⟨v, member, fits⟩, apart⟩ := gap
  refine ⟨⟨v, member, ?_⟩, fun w memberW => ?_⟩
  · rwa [AddressSpace.first, vads v member]
  · rw [AddressSpace.first, AddressSpace.last, vads w memberW]
    exact apart w memberW

theorem SearchStaysInside.congr (stays : SearchStaysInside σ nodes pages)
    (vads : ∀ v ∈ nodes, σ'.vad v = σ.vad v) : SearchStaysInside σ' nodes pages := by
  have first : ∀ v ∈ nodes, σ'.first v = σ.first v := fun v member => by
    rw [AddressSpace.first, vads v member, AddressSpace.first]
  have last : ∀ v ∈ nodes, σ'.last v = σ.last v := fun v member => by
    rw [AddressSpace.last, vads v member, AddressSpace.last]
  intro positive bounded
  obtain ⟨low, high⟩ := stays positive bounded
  constructor
  · rintro ⟨v, member, below⟩
    rw [first v member] at below
    exact (low ⟨v, member, below⟩).imp_right fun fits => fits.congr vads
  · intro above
    rcases high fun v member => first v member ▸ above v member with ⟨p, later, gap⟩ | short
    · exact .inl ⟨p, later, gap.congr vads⟩
    · exact .inr fun v member => by
        rw [last v member]
        exact short v member

theorem RangeSound.of_failed (tree : σ'.mmKernelVadTree = σ.mmKernelVadTree)
    (vads : ∀ v ∈ nodes, σ'.vad v = σ.vad v) : RangeSound σ σ' nodes pages 0 :=
  ⟨fun nonzero => absurd rfl nonzero, fun _ => ⟨tree, vads⟩, fun _ => rfl⟩

theorem RangeSound.of_new (reached : σ'.mmKernelVadTree.Reaches new)
    (fresh : ¬ σ.mmKernelVadTree.Reaches new) : RangeSound σ σ' nodes pages va ↔
      0xC1000000 ≤ va.toNat ∧ va.toNat + pages * 4096 ≤ 0xFFC00000 ∧ WindowFits σ nodes pages := by
  constructor
  · rintro ⟨window, failed, full⟩
    have nonzero : va ≠ 0 := by
      intro zero
      rw [(failed zero).1] at reached
      exact fresh reached
    exact ⟨(window nonzero).1, (window nonzero).2, by_contra fun none => nonzero (full none)⟩
  · rintro ⟨low, high, fits⟩
    refine ⟨fun _ => ⟨low, high⟩, fun zero => ?_, fun none => absurd fits none⟩
    rw [zero] at low
    simp at low

theorem chosen_iff (space : ∀ v ∈ nodes, σ.first v ≤ σ.last v ∧ σ.last v < 0x100000) (va : BitVec 32)
    (positive : 0 < pages) (bounded : pages ≤ 0x3EC00)
    (within : (va.toNat + pages * 4096) % 0x100000000 < 0xFFC00000)
    (chosen : ChosenPlace σ nodes pages va) :
    (0xC1000000 ≤ va.toNat ∧ va.toNat + pages * 4096 ≤ 0xFFC00000 ∧ WindowFits σ nodes pages) ↔
      SearchStaysInside σ nodes pages := by
  have bound := va.isLt
  rcases chosen with ⟨start, empty | low⟩ | ⟨above, ⟨p, later, gap, same⟩ | ⟨nowhere, v, member, behind, same⟩⟩
  · subst empty
    refine iff_of_true ⟨by omega, by omega, 0xC1000, Nat.le_refl _, by omega, fun v => (absurd · List.not_mem_nil)⟩ ?_
    intro _ _
    exact ⟨fun ⟨v, member, _⟩ => absurd member List.not_mem_nil, fun _ => .inr fun v => (absurd · List.not_mem_nil)⟩
  · obtain ⟨k, memberK, below⟩ := low
    constructor
    · rintro ⟨_, _, fits⟩ _ _
      refine ⟨fun _ => .inr fits, fun above => ?_⟩
      have := above k memberK
      omega
    · intro stays
      have fits := ((stays positive bounded).1 ⟨k, memberK, below⟩).resolve_left (by omega)
      exact ⟨by omega, by omega, fits⟩
  · obtain ⟨⟨v, member, fits⟩, apart⟩ := gap
    have := space v member
    refine iff_of_true ⟨by omega, by omega, p, later, by omega, apart⟩ fun _ _ => ⟨?_, fun _ => .inl ?_⟩
    · rintro ⟨w, memberW, below⟩
      have := above w memberW
      omega
    · exact ⟨p, later, ⟨v, member, fits⟩, apart⟩
  · have inside := space v member
    have start := above v member
    constructor
    · rintro ⟨low, high, _⟩ _ _
      refine ⟨?_, fun _ => .inr fun w memberW => ?_⟩
      · rintro ⟨w, memberW, below⟩
        have := above w memberW
        omega
      · have := behind w memberW
        omega
    · intro stays
      have short := ((stays positive bounded).2 above).resolve_left fun ⟨p, later, gap⟩ => nowhere p later gap
      have := short v member
      refine ⟨by omega, by omega, σ.last v + 1, by omega, by omega, fun w memberW => ?_⟩
      have := behind w memberW
      omega

theorem exhausted_stays (space : ∀ v ∈ nodes, σ.first v ≤ σ.last v ∧ σ.last v < 0x100000) (va : BitVec 32)
    (exhausted : 0xFFC00000 ≤ (va.toNat + pages * 4096) % 0x100000000)
    (chosen : ChosenPlace σ nodes pages va) : SearchStaysInside σ nodes pages := by
  intro positive bounded
  rcases chosen with ⟨start, some_⟩ | ⟨above, chosen⟩
  · refine ⟨fun _ => .inl (by omega), fun above => ?_⟩
    rcases some_ with rfl | ⟨k, memberK, below⟩
    · exact .inr fun v => (absurd · List.not_mem_nil)
    · have := above k memberK
      omega
  · refine ⟨fun ⟨w, memberW, below⟩ => ?_, fun _ => ?_⟩
    · have := above w memberW
      omega
    · rcases chosen with ⟨p, later, gap, _⟩ | ⟨_, v, member, behind, same⟩
      · exact .inl ⟨p, later, gap⟩
      · right
        intro w memberW
        have := space v member
        have := behind w memberW
        omega

/-- A range that is returned is sound when the search stays inside the window, and then only. -/
theorem range_bounds_iff (ranges : Ranges σ t) (space : ∀ v ∈ t.inorder, σ.first v ≤ σ.last v ∧ σ.last v < 0x100000)
    (enough : 2 * t.size ≤ fuel) (available : Nat) (pages : BitVec 32) :
    ∃ σ' va, mmAllocateVirtualRange fuel σ available pages = some (σ', va) ∧
      (RangeSound σ σ' t.inorder pages.toNat va ↔
        ((mmpAllocateVadNode σ available).isSome → SearchStaysInside σ t.inorder pages.toNat)) := by
  cases taken : mmpAllocateVadNode σ available with
  | none =>
    refine ⟨σ, 0, ?_, iff_of_true (.of_failed rfl fun _ _ => rfl) fun found => nomatch found⟩
    simp only [mmAllocateVirtualRange, taken]
  | some found =>
    obtain ⟨σ₁, new⟩ := found
    obtain ⟨ranges₁, outside, known, tree, vads⟩ := ranges.allocate taken
    have fresh : new ∉ t.inorder := fun member => outside (List.mem_append_left _ member)
    have kept : ∀ v ∈ t.inorder, (mmpFreeVadNode σ₁ new).vad v = σ.vad v := by
      intro v member
      have other : v ≠ new := by
        rintro rfl
        exact fresh member
      simp [mmpFreeVadNode, AddressSpace.setVad, other, vads v member]
    have fails : RangeSound σ (mmpFreeVadNode σ₁ new) t.inorder pages.toNat 0 := .of_failed tree kept
    have limit : ((kvaLimit - startingKva) / pageSize).toNat = 0x3EC00 := by decide
    have zero : (0 : BitVec 32).toNat = 0 := rfl
    simp only [Option.isSome_some, true_imp_iff]
    by_cases invalid : pages = 0 ∨ pages > (kvaLimit - startingKva) / pageSize
    · refine ⟨_, 0, ?_, iff_of_true fails fun positive bounded => ?_⟩
      · simp only [mmAllocateVirtualRange, taken, if_pos invalid]
      · rw [gt_iff_lt, BitVec.lt_def, limit, ← BitVec.toNat_inj, zero] at invalid
        omega
    · have valid : 0 < pages.toNat ∧ pages.toNat ≤ 0x3EC00 := by
        rw [gt_iff_lt, BitVec.lt_def, limit, ← BitVec.toNat_inj, zero] at invalid
        omega
      have space₁ : ∀ v ∈ t.inorder, σ₁.first v ≤ σ₁.last v ∧ σ₁.last v < 0x100000 := by
        intro v member
        rw [AddressSpace.first, AddressSpace.last, vads v member]
        exact space v member
      obtain ⟨va, chosen, cases_⟩ := choose_cases ranges₁ valid.1 valid.2 (show _ ≤ fuel by omega)
      have total : (va + pages * 4096).toNat = (va.toNat + pages.toNat * 4096) % 0x100000000 := by
        have page : (4096 : BitVec 32).toNat = 4096 := rfl
        rw [BitVec.toNat_add, BitVec.toNat_mul, page]
        omega
      have end_ : kvaLimit.toNat = 0xFFC00000 := by decide
      by_cases exhausted : va + pages * 4096 ≥ kvaLimit
      · refine ⟨_, 0, ?_, iff_of_true fails ?_⟩
        · simp only [mmAllocateVirtualRange, taken, if_neg invalid, chosen, if_pos exhausted,
            Option.bind_eq_bind, Option.bind_some, Option.pure_def]
        · rw [ge_iff_le, BitVec.le_def, total, end_] at exhausted
          exact (exhausted_stays space₁ va exhausted cases_).congr fun v member => (vads v member).symm
      · obtain ⟨σ', inserted, reached⟩ := ranges₁.insertAny outside
          { σ₁.vad new with
            startingVpn := va >>> 12
            endingVpn := va >>> 12 + pages - 1 } (show _ ≤ fuel by omega)
        refine ⟨σ', va, ?_, ?_⟩
        · simp only [mmAllocateVirtualRange, taken, if_neg invalid, chosen, if_neg exhausted,
            Option.bind_eq_bind, Option.bind_some, Option.pure_def]
          rw [inserted, Option.bind_some]
        · rw [ge_iff_le, BitVec.le_def, total, end_] at exhausted
          have fits : WindowFits σ t.inorder pages.toNat ↔ WindowFits σ₁ t.inorder pages.toNat :=
            ⟨fun fits => fits.congr vads, fun fits => fits.congr fun v member => (vads v member).symm⟩
          have unreached : ¬ σ.mmKernelVadTree.Reaches new := mt ranges.focus.reaches_iff.mp fresh
          rw [RangeSound.of_new reached unreached, fits,
            chosen_iff space₁ va valid.1 valid.2 (by omega) cases_]
          exact ⟨fun stays => stays.congr fun v member => (vads v member).symm, fun stays => stays.congr vads⟩

/-- Two pages between the ranges. -/
theorem range_bounds_iff_between : ∃ σ' va,
    mmAllocateVirtualRange 4 (twoRanges 0xC1001 0xC1003 0xC1006 0xC1006) 1 2 = some (σ', va) ∧
      RangeSound (twoRanges 0xC1001 0xC1003 0xC1006 0xC1006) σ' [0, 1] 2 va := by
  have ranges : Ranges (twoRanges 0xC1001 0xC1003 0xC1006 0xC1006) _ :=
    ranges_twoRanges (by decide) (by decide) (by decide) (by decide)
  obtain ⟨σ', va, allocated, sound⟩ := range_bounds_iff ranges (show ∀ v ∈ [0, 1], _ by decide)
    (show _ ≤ 4 by decide) 1 2
  refine ⟨σ', va, allocated, sound.mpr fun _ _ _ => ⟨?_, fun _ => .inl ⟨0xC1004, by decide, ⟨1, by decide, by decide⟩, ?_⟩⟩⟩
  · rintro ⟨v, member, below⟩
    have above : ∀ v ∈ [0, 1], 0xC1000 ≤ (twoRanges 0xC1001 0xC1003 0xC1006 0xC1006).first v := by decide
    have := above v member
    omega
  · exact show ∀ v ∈ [0, 1], _ by decide

def oneRange (startingVpn endingVpn : BitVec 32) : AddressSpace Unit where
  mmKernelVadTree := ⟨fun _ _ => none, fun _ => none, fun _ => 1, some 0, some 0⟩
  vad _ := ⟨startingVpn, endingVpn, none, 0, 0⟩
  mmVadFreeList := []
  obtained := 1

/-- One range up to 0xF0000000, and as many pages as reach from there to the end of the address
space: the limit test wraps, and what is returned leaves the window. -/
theorem range_leaves_window : ∃ σ', mmAllocateVirtualRange 4 (oneRange 0xC1000 0xEFFFF) 1 0x10000 =
    some (σ', 0xF0000000) ∧ ¬ RangeSound (oneRange 0xC1000 0xEFFFF) σ' [0] 0x10000 0xF0000000 := by
  refine ⟨_, rfl, fun sound => ?_⟩
  have high := (sound.window (by decide)).2
  revert high
  decide

end Bounds
end VeaOS.Mm
