import Mathlib.Data.List.Pairwise
import VeaOS.Mm.VadRanges

/-! Runs of calls on one address space. The ranges stay disjoint as long as no
call meets one of the places where the code does not look: an address given by
the caller that lies in a range, or a range outside the pages that the search
for a gap was written for. -/
namespace VeaOS.Mm
open Foundation PointerTree Rtl Transition
variable {Area : Type}

/-- The pages from `start` on are free. Where there are none, `start` is. -/
def Apart (σ : AddressSpace Area) (start pages : Nat) : Prop :=
  ∀ v, σ.mmKernelVadTree.Reaches v →
    σ.last v < start ∨ (start < σ.first v ∧ start + pages ≤ σ.first v)

/-- What the search for a gap needs. Where a range lies below the first page it
looks at, the pages from there on are free, unless they are all asked for, which
always fails; otherwise there is a gap, or the ranges end before the last page of
the address space. -/
def RoomFor (σ : AddressSpace Area) (pages : Nat) : Prop :=
  0 < pages → pages ≤ 0x3EC00 →
    ((∃ v, σ.mmKernelVadTree.Reaches v ∧ σ.first v < 0xC1000) → pages < 0x3EC00 →
      Apart σ 0xC1000 pages) ∧
    ((∀ v, σ.mmKernelVadTree.Reaches v → 0xC1000 ≤ σ.first v) →
      (∀ v, σ.mmKernelVadTree.Reaches v → σ.last v + 1 < 0x100000) ∨
      ∃ p, 0xC1000 ≤ p ∧ (∃ v, σ.mmKernelVadTree.Reaches v ∧ p + pages ≤ σ.first v) ∧
        ∀ v, σ.mmKernelVadTree.Reaches v → σ.last v < p ∨ p + pages ≤ σ.first v)

/-- The call finds room where it does not look for it. -/
def FindsRoom (σ : AddressSpace Area) : VmCall Area → Prop
  | .allocateRange available pageCount =>
    (mmpAllocateVadNode σ available).isSome → RoomFor σ pageCount.toNat
  | .mapView available pooled (some _) (some base) viewSize _ _ =>
    viewSize ≠ 0 →
      if pageAlignDown base = 0 then
        (mmpAllocateVadNode σ available).isSome → RoomFor σ (pageRoundUp viewSize >>> 12).toNat
      else pooled = true →
        Apart σ (pageAlignDown base >>> 12).toNat (pageRoundUp viewSize >>> 12).toNat
  | _ => True

theorem pageAlignDown_eq (va : BitVec 32) : pageAlignDown va = (va >>> 12) <<< 12 := by
  have mask : ∀ i : Fin 32, (~~~(pageSize - 1)).getLsbD i = decide (12 ≤ i.val) := by decide
  apply BitVec.eq_of_getLsbD_eq
  intro i bound
  rw [pageAlignDown, BitVec.getLsbD_and, mask ⟨i, bound⟩, BitVec.getLsbD_shiftLeft,
    BitVec.getLsbD_ushiftRight]
  by_cases high : 12 ≤ i
  · simp [high, bound, show ¬ i < 12 by omega, show 12 + (i - 12) = i by omega]
  · simp [high, show i < 12 by omega]

theorem pageAlignDown_pos (nonzero : pageAlignDown va ≠ 0) : 0 < (pageAlignDown va >>> 12).toNat := by
  rw [pageAlignDown_eq] at nonzero ⊢
  have whole : ((va >>> 12) <<< 12).toNat = va.toNat / 4096 * 4096 := by
    rw [toNat_shiftLeft_page, toNat_shiftRight_page]
    omega
  rw [toNat_shiftRight_page, whole]
  have : va.toNat / 4096 * 4096 ≠ 0 := fun zero => nonzero (BitVec.eq_of_toNat_eq (whole.trans zero))
  omega

theorem toNat_pageRoundUp (size : BitVec 32) :
    (pageRoundUp size).toNat = (size.toNat + 4095) % 0x100000000 / 4096 * 4096 := by
  have sum : (size + pageSize - 1).toNat = (size.toNat + 4095) % 0x100000000 := by
    have page : pageSize.toNat = 0x1000 := rfl
    have one : (1 : BitVec 32).toNat = 1 := rfl
    rw [BitVec.toNat_sub, BitVec.toNat_add, page, one]
    omega
  have down : pageRoundUp size = pageAlignDown (size + pageSize - 1) := rfl
  rw [down, pageAlignDown_eq, toNat_shiftLeft_page, toNat_shiftRight_page, sum]
  omega

theorem toNat_roundUp_pages (size : BitVec 32) :
    (pageRoundUp size >>> 12).toNat = (size.toNat + 4095) % 0x100000000 / 4096 := by
  rw [toNat_shiftRight_page, toNat_pageRoundUp, Nat.mul_div_cancel _ (by decide)]

section Calls
variable {σ σ' : AddressSpace Area} {t : KeyTree Nat Int}

theorem RoomFor.congr (room : RoomFor σ pages) (tree : σ'.mmKernelVadTree = σ.mmKernelVadTree)
    (vads : ∀ v, σ.mmKernelVadTree.Reaches v → σ'.vad v = σ.vad v) : RoomFor σ' pages := by
  have first : ∀ v, σ.mmKernelVadTree.Reaches v → σ'.first v = σ.first v := fun v reached => by
    rw [AddressSpace.first, vads v reached, AddressSpace.first]
  have last : ∀ v, σ.mmKernelVadTree.Reaches v → σ'.last v = σ.last v := fun v reached => by
    rw [AddressSpace.last, vads v reached, AddressSpace.last]
  intro positive bounded
  obtain ⟨low, high⟩ := room positive bounded
  rw [tree]
  constructor
  · rintro ⟨v, reached, below⟩ short w reachedW
    rw [first v reached] at below
    rw [tree] at reachedW
    rw [first w reachedW, last w reachedW]
    exact low ⟨v, reached, below⟩ short w reachedW
  · intro above
    rcases high fun v reached => first v reached ▸ above v reached with ends | ⟨p, start, ⟨v, reached, fits⟩, free⟩
    · exact .inl fun v reached => by rw [last v reached]; exact ends v reached
    · refine .inr ⟨p, start, ⟨v, reached, by rwa [first v reached]⟩, fun w reachedW => ?_⟩
      rw [first w reachedW, last w reachedW]
      exact free w reachedW

/-- Without ranges, or behind one below the window, the first page is chosen; otherwise the
search for a gap decides. -/
theorem choose_search (ranges : Ranges σ t) (positive : 0 < pages.toNat) (bounded : pages.toNat ≤ 0x3EC00)
    (enough : t.size ≤ fuel) :
    (∃ va, chooseVa fuel σ pages = some va ∧ va.toNat = 0xC1000000 ∧
      (t.inorder = [] ∨ ∃ v ∈ t.inorder, σ.first v < 0xC1000)) ∨
    (∃ v, v ∈ t.inorder) ∧ (∀ v ∈ t.inorder, 0xC1000 ≤ σ.first v) ∧ ∃ va page : BitVec 32,
      chooseVa fuel σ pages = some (if va = 0 then page <<< 12 else va) ∧ 0xC1000 ≤ page.toNat ∧
      (va = page <<< 12 ∧ Gap σ t.inorder pages.toNat page.toNat ∨
        va = 0 ∧ (∀ v ∈ t.inorder, σ.last v < page.toNat) ∧
          (page.toNat = 0xC1000 ∨ ∃ v ∈ t.inorder, page.toNat = σ.last v + 1) ∧
          ∀ p, 0xC1000 ≤ p → ¬ Gap σ t.inorder pages.toNat p) := by
  have root := ranges.focus.root_top
  have start : (startingKva >>> 12).toNat = 0xC1000 := rfl
  cases order : t.inorder with
  | nil =>
    have empty : t = .nil := by
      cases t with
      | nil => rfl
      | node l x d r => simp [KeyTree.inorder] at order
    subst t
    refine .inl ⟨startingKva, ?_, rfl, .inl rfl⟩
    simp only [chooseVa, root, KeyTree.root_nil]
  | cons k rest =>
    rw [← order]
    have memberK : k ∈ t.inorder := by simp [order]
    obtain ⟨r, rooted⟩ : ∃ r, t.root = some r := by
      cases t with
      | nil => cases memberK
      | node l x d r => exact ⟨x, rfl⟩
    have leftmost := ranges.leftmost
    rw [order, List.head?_cons] at leftmost
    by_cases below : σ.first k < 0xC1000
    · -- the width of the gap in front of the first range wraps
      refine .inl ⟨(startingKva >>> 12) <<< 12, ?_, by decide, .inr ⟨k, memberK, below⟩⟩
      have size : 0 < t.size := by
        rw [← KeyTree.length_inorder]
        exact List.length_pos_of_mem memberK
      obtain ⟨steps, rfl⟩ : ∃ less, fuel = less + 1 := ⟨fuel - 1, by omega⟩
      have wraps : (σ.vad k).startingVpn - startingKva >>> 12 ≥ pages := by
        rw [ge_iff_le, BitVec.le_def, BitVec.toNat_sub, start]
        have : (σ.vad k).startingVpn.toNat < 0xC1000 := below
        omega
      rw [chooseVa, root, rooted, leftmost]
      simp only [mmpFindFreeVirtualGap, if_pos wraps]
      rfl
    · have above : ∀ v ∈ t.inorder, 0xC1000 ≤ σ.first v := by
        have sorted := ranges.ordered
        rw [order, List.pairwise_cons] at sorted
        intro v member
        rcases List.mem_cons.mp (order ▸ member) with rfl | later
        · omega
        · have := sorted.1 v later
          have := ranges.bounds k memberK
          omega
      obtain ⟨va, page, found, forward, result⟩ := gap_spec fuel (startingKva >>> 12) ranges.focus ranges.ordered
        (fun v member => (ranges.bounds v member).2) (show t.inorder = [] ++ t.inorder from rfl) enough
        (by rwa [KeyTree.length_inorder]) positive (fun v => (absurd · List.not_mem_nil)) above
      rw [start] at forward result
      refine .inr ⟨⟨k, memberK⟩, above, va, page, ?_, forward, ?_⟩
      · rw [order, List.head?_cons] at found
        rw [chooseVa, root, rooted, leftmost]
        simp only [found]
        rfl
      · rcases result with ⟨chosen, gap, _⟩ | ⟨fails, all, reached, nowhere⟩
        · exact .inl ⟨chosen, gap⟩
        · exact .inr ⟨fails, all, reached.imp_left fun same => by rw [same, start], nowhere⟩

theorem choose_spec (ranges : Ranges σ t) (room : RoomFor σ pages.toNat) (positive : 0 < pages.toNat)
    (bounded : pages.toNat ≤ 0x3EC00) (enough : t.size ≤ fuel) :
    ∃ va, chooseVa fuel σ pages = some va ∧ va ≠ 0 ∧
      ((va.toNat + pages.toNat * 4096) % 0x100000000 < 0xFFC00000 →
        Between σ t (va.toNat / 4096) pages.toNat) := by
  have reaches : ∀ v, σ.mmKernelVadTree.Reaches v ↔ v ∈ t.inorder := fun v => ranges.focus.reaches_iff
  obtain ⟨low, high⟩ := room positive bounded
  simp only [Apart, reaches] at low high
  rcases choose_search ranges positive bounded enough with
    ⟨va, chosen, first, some_⟩ | ⟨_, above, va, page, chosen, forward, result⟩
  · refine ⟨va, chosen, fun zero => ?_, fun fits => ?_⟩
    · rw [zero] at first
      cases first
    · rw [first] at fits ⊢
      rcases some_ with empty | below
      · intro v member
        rw [empty] at member
        cases member
      · exact low below (by omega)
  · have small : page.toNat < 0x100000 := by
      rcases result with ⟨_, ⟨v, member, fits⟩, _⟩ | ⟨_, _, reached, nowhere⟩
      · have := ranges.bounds v member
        omega
      · rcases high above with ends | ⟨p, later, fits, free⟩
        · rcases reached with same | ⟨v, member, same⟩
          · omega
          · have := ends v member
            omega
        · exact absurd ⟨fits, free⟩ (nowhere p later)
    have whole : (page <<< 12).toNat = page.toNat * 4096 := by
      rw [toNat_shiftLeft_page]
      omega
    have nonzero : page <<< 12 ≠ 0 := by
      intro zero
      rw [zero] at whole
      simp at whole
      omega
    have place : (if va = 0 then page <<< 12 else va) = page <<< 12 := by
      rcases result with ⟨rfl, _⟩ | ⟨rfl, _⟩
      · exact ite_self _
      · exact if_pos rfl
    rw [place] at chosen
    refine ⟨_, chosen, nonzero, fun _ v member => ?_⟩
    rw [whole, Nat.mul_div_cancel _ (by decide)]
    rcases result with ⟨_, _, free⟩ | ⟨_, all, _⟩
    · have := free v member
      omega
    · exact .inl (all v member)

/-- What a call leaves behind: ranges in order, and the tree as it was when the
call fails. -/
structure Keeps (σ σ' : AddressSpace Area) (t t' : KeyTree Nat Int) (ok : Bool) : Prop where
  ranges : Ranges σ' t'
  size : t'.size ≤ t.size + 1
  unchanged : ok = false → σ'.mmKernelVadTree = σ.mmKernelVadTree ∧ ∀ v ∈ t.inorder, σ'.vad v = σ.vad v

theorem Keeps.refl (ranges : Ranges σ t) (ok : Bool) : Keeps σ σ t t ok :=
  ⟨ranges, Nat.le_succ _, fun _ => ⟨rfl, fun _ _ => rfl⟩⟩

theorem Ranges.write (ranges : Ranges σ t) (outside : new ∉ t.inorder ++ σ.mmVadFreeList)
    (vad : MmVad Area) : Ranges (σ.setVad new vad) t ∧ ∀ v ∈ t.inorder, (σ.setVad new vad).vad v = σ.vad v := by
  have others : ∀ v ∈ t.inorder, (σ.setVad new vad).vad v = σ.vad v := by
    intro v member
    apply if_neg
    rintro rfl
    exact outside (List.mem_append_left _ member)
  exact ⟨ranges.congr rfl (fun v member => by rw [others v member]; exact ⟨rfl, rfl⟩) ranges.unused
    ranges.numbered, others⟩

theorem Ranges.insertNew (ranges : Ranges σ t) (outside : new ∉ t.inorder ++ σ.mmVadFreeList)
    (known : new < σ.obtained) (vad : MmVad Area) {start pages : Nat}
    (first : vad.startingVpn.toNat = start) (last : vad.endingVpn.toNat + 1 = start + pages)
    (between : Between σ t start pages) (small : start < 0x100000) (short : pages < 0x100000)
    (enough : 2 * t.size ≤ fuel) :
    ∃ σ' t', insertVad fuel (σ.setVad new vad) new = some σ' ∧ Ranges σ' t' ∧ t'.size = t.size + 1 ∧
      (∀ v, v ∈ t'.inorder ↔ v ∈ t.inorder ∨ v = new) ∧ σ'.vad new = vad ∧
      σ'.first new = start ∧ σ'.last new + 1 = start + pages := by
  obtain ⟨written, others⟩ := ranges.write outside vad
  have here : (σ.setVad new vad).vad new = vad := if_pos rfl
  have firstNew : (σ.setVad new vad).first new = start := by rw [AddressSpace.first, here, first]
  have lastNew : (σ.setVad new vad).last new + 1 = start + pages := by
    rw [AddressSpace.last, here, last]
  have apart : ∀ v ∈ t.inorder, (σ.setVad new vad).last v < (σ.setVad new vad).first new ∨
      ((σ.setVad new vad).first new < (σ.setVad new vad).first v ∧
        (σ.setVad new vad).last new < (σ.setVad new vad).first v) := by
    intro v member
    have lies := between v member
    simp only [AddressSpace.first, AddressSpace.last, others v member] at lies firstNew lastNew ⊢
    omega
  obtain ⟨σ', t', inserted, ranges', size, members, vads⟩ :=
    written.insert (show new ∉ _ ++ (σ.setVad new vad).mmVadFreeList from outside) known apart (by omega) enough
  refine ⟨σ', t', inserted, ranges', size, members, vads ▸ here, ?_, ?_⟩
  · rw [AddressSpace.first, vads]
    exact firstNew
  · rw [AddressSpace.last, vads]
    exact lastNew

theorem allocate_spec (ranges : Ranges σ t)
    (room : (mmpAllocateVadNode σ available).isSome → RoomFor σ pages.toNat)
    (enough : 2 * t.size ≤ fuel) :
    ∃ σ' va t', mmAllocateVirtualRange fuel σ available pages = some (σ', va) ∧
      Keeps σ σ' t t' (va != 0) ∧
      (va ≠ 0 → ∃ v, v ∉ t.inorder ∧ (∀ w, w ∈ t'.inorder ↔ w ∈ t.inorder ∨ w = v) ∧
        σ'.first v = va.toNat / 4096 ∧ σ'.last v + 1 = va.toNat / 4096 + pages.toNat ∧ 0 < pages.toNat) := by
  cases taken : mmpAllocateVadNode σ available with
  | none =>
    refine ⟨σ, 0, t, ?_, .refl ranges _, fun nonzero => absurd rfl nonzero⟩
    simp only [mmAllocateVirtualRange, taken]
  | some found =>
    obtain ⟨σ₁, new⟩ := found
    obtain ⟨ranges₁, outside, known, tree, vads⟩ := ranges.allocate taken
    have room₁ : RoomFor σ₁ pages.toNat := (room (by simp [taken])).congr tree fun v reached =>
      vads v (ranges.focus.reaches_iff.mp reached)
    have fails : Keeps σ (mmpFreeVadNode σ₁ new) t t false := by
      refine ⟨ranges₁.free outside known, Nat.le_succ _, fun _ => ⟨tree, fun v member => ?_⟩⟩
      have other : v ≠ new := by
        rintro rfl
        exact outside (List.mem_append_left _ member)
      simp [mmpFreeVadNode, AddressSpace.setVad, other, vads v member]
    by_cases invalid : pages = 0 ∨ pages > (kvaLimit - startingKva) / pageSize
    · refine ⟨_, 0, t, ?_, fails, fun nonzero => absurd rfl nonzero⟩
      simp only [mmAllocateVirtualRange, taken, if_pos invalid]
    · have valid : 0 < pages.toNat ∧ pages.toNat ≤ 0x3EC00 := by
        have limit : ((kvaLimit - startingKva) / pageSize).toNat = 0x3EC00 := by decide
        rw [not_or, gt_iff_lt, BitVec.lt_def, limit] at invalid
        refine ⟨?_, by omega⟩
        have : pages.toNat ≠ 0 := fun zero => invalid.1 (BitVec.eq_of_toNat_eq zero)
        omega
      obtain ⟨va, chosen, nonzero, between⟩ :=
        choose_spec ranges₁ room₁ valid.1 valid.2 (show _ ≤ fuel by omega)
      have total : (va + pages * 4096).toNat = (va.toNat + pages.toNat * 4096) % 0x100000000 := by
        have page : (4096 : BitVec 32).toNat = 4096 := rfl
        rw [BitVec.toNat_add, BitVec.toNat_mul, page]
        omega
      have limit : kvaLimit.toNat = 0xFFC00000 := by decide
      by_cases exhausted : va + pages * 4096 ≥ kvaLimit
      · refine ⟨_, 0, t, ?_, fails, fun nonzero => absurd rfl nonzero⟩
        simp only [mmAllocateVirtualRange, taken, if_neg invalid, chosen, if_pos exhausted,
          Option.bind_eq_bind, Option.bind_some, Option.pure_def]
      · have fits := exhausted
        rw [ge_iff_le, BitVec.le_def, total, limit] at fits
        have first : (va >>> 12).toNat = va.toNat / 4096 := toNat_shiftRight_page va
        have last : (va >>> 12 + pages - 1).toNat + 1 = va.toNat / 4096 + pages.toNat := by
          have one : (1 : BitVec 32).toNat = 1 := rfl
          rw [BitVec.toNat_sub, BitVec.toNat_add, first, one]
          omega
        obtain ⟨σ', t', inserted, ranges', size, members, _, firstNew, lastNew⟩ := ranges₁.insertNew outside
          known
          { σ₁.vad new with
            startingVpn := va >>> 12
            endingVpn := va >>> 12 + pages - 1 }
          first last (between (by omega)) (by omega) (by omega) enough
        have fresh : new ∉ t.inorder := fun member => outside (List.mem_append_left _ member)
        refine ⟨σ', va, t', ?_, ⟨ranges', by omega, fun failed => ?_⟩,
          fun _ => ⟨new, fresh, members, firstNew, lastNew, valid.1⟩⟩
        · simp only [mmAllocateVirtualRange, taken, if_neg invalid, chosen, if_neg exhausted,
            Option.bind_eq_bind, Option.bind_some, Option.pure_def]
          rw [inserted, Option.bind_some]
        · exact absurd (by simpa using failed) nonzero

/-- The node of a view that was mapped at an address. -/
structure ViewNode (σ : AddressSpace Area) (v : Nat) (area : Option Area) (va pages : Nat)
    (viewOffset : BitVec 64) : Prop where
  first : σ.first v = va / 4096
  last : σ.last v + 1 = va / 4096 + pages
  controlArea : (σ.vad v).controlArea = area
  viewOffset : (σ.vad v).viewOffset = viewOffset.setWidth 32

theorem lookup_spec (ranges : Ranges σ t) (vpn : BitVec 32) (enough : 2 * t.size ≤ fuel) :
    ∃ found, mmpFindVadByVpn σ vpn fuel σ.mmKernelVadTree.root = some found ∧
      (∀ v, found = some v → v ∈ t.inorder) ∧
      ∀ v ∈ t.inorder, σ.first v ≤ vpn.toNat → vpn.toNat ≤ σ.last v → found = some v := by
  rw [ranges.focus.root_top]
  exact find_spec vpn ranges.focus.stored ranges.ordered (fun v member => (ranges.bounds v member).2.1)
    (show _ ≤ fuel by omega)

theorem remove_spec (ranges : Ranges σ t) (present : v ∈ t.inorder) (enough : 2 * t.size ≤ fuel) :
    ∃ σ' t', removeVad fuel σ v = some σ' ∧ Keeps σ σ' t t' true := by
  obtain ⟨σ', t', removed, ranges', size⟩ := ranges.remove present enough
  exact ⟨σ', t', removed, ranges', by omega, fun failed => nomatch failed⟩

theorem free_spec (ranges : Ranges σ t) (enough : 2 * t.size ≤ fuel) :
    ∃ σ' ok t', mmFreeVirtualRange fuel σ va = some (σ', ok) ∧ Keeps σ σ' t t' ok := by
  obtain ⟨found, looked, inside, _⟩ := lookup_spec ranges (va >>> 12) enough
  cases found with
  | none =>
    refine ⟨σ, false, t, ?_, .refl ranges _⟩
    simp only [mmFreeVirtualRange, looked, Option.bind_eq_bind, Option.bind_some, Option.pure_def]
  | some v =>
    by_cases base : va >>> 12 ≠ (σ.vad v).startingVpn
    · refine ⟨σ, false, t, ?_, .refl ranges _⟩
      simp only [mmFreeVirtualRange, looked, Option.bind_eq_bind, Option.bind_some, Option.pure_def,
        if_pos base]
    · obtain ⟨σ', t', removed, keeps⟩ := remove_spec ranges (inside v rfl) enough
      refine ⟨σ', true, t', ?_, keeps⟩
      simp only [mmFreeVirtualRange, looked, Option.bind_eq_bind, Option.bind_some, Option.pure_def,
        if_neg base, removed]

theorem unmap_spec (process : Bool) (base : BitVec 32) (ranges : Ranges σ t)
    (enough : 2 * t.size ≤ fuel) :
    ∃ σ' status t', mmUnmapViewOfSection fuel σ process base = some (σ', status) ∧
      Keeps σ σ' t t' (status == .success) := by
  by_cases invalid : process = false ∨ base = 0
  · refine ⟨σ, .invalidParameter, t, ?_, .refl ranges _⟩
    simp only [mmUnmapViewOfSection, if_pos invalid, Option.pure_def]
  · obtain ⟨found, looked, inside, _⟩ := lookup_spec ranges (pageAlignDown base >>> 12) enough
    cases found with
    | none =>
      refine ⟨σ, .notMappedView, t, ?_, .refl ranges _⟩
      simp only [mmUnmapViewOfSection, if_neg invalid, looked, Option.bind_eq_bind, Option.bind_some,
        Option.pure_def]
    | some v =>
      by_cases base' : (σ.vad v).startingVpn ≠ pageAlignDown base >>> 12
      · refine ⟨σ, .freeVmNotAtBase, t, ?_, .refl ranges _⟩
        simp only [mmUnmapViewOfSection, if_neg invalid, looked, Option.bind_eq_bind,
          Option.bind_some, Option.pure_def, if_pos base']
      · obtain ⟨σ', t', removed, keeps⟩ := remove_spec ranges (inside v rfl) enough
        refine ⟨σ', .success, t', ?_, keeps⟩
        simp only [mmUnmapViewOfSection, if_neg invalid, looked, Option.bind_eq_bind,
          Option.bind_some, Option.pure_def, if_neg base', removed]

theorem map_spec {segment : Option (Option Area)} {base : Option (BitVec 32)} (ranges : Ranges σ t)
    (room : FindsRoom σ (.mapView available pooled segment base viewSize protect viewOffset))
    (enough : 2 * t.size + 2 ≤ fuel) :
    ∃ σ' status out t', mmMapViewOfSegment fuel σ available pooled segment base viewSize protect
        viewOffset = some (σ', status, out) ∧ Keeps σ σ' t t' (status == .success) ∧
      (status = .success → ∃ area asked va v, segment = some area ∧ base = some asked ∧ out = some va ∧
        viewSize ≠ 0 ∧ v ∉ t.inorder ∧ (∀ w, w ∈ t'.inorder ↔ w ∈ t.inorder ∨ w = v) ∧
        ViewNode σ' v area va.toNat (pageRoundUp viewSize >>> 12).toNat viewOffset ∧
        if pageAlignDown asked = 0 then
          va ≠ 0 ∧ ∃ σ₁, mmAllocateVirtualRange fuel σ available (pageRoundUp viewSize >>> 12) = some (σ₁, va)
        else va = pageAlignDown asked) := by
  have refused : ∀ {status : VeaStatus} {P : Prop}, status ≠ .success → status = .success → P :=
    fun differs same => absurd same differs
  cases segment with
  | none => exact ⟨σ, .invalidParameter, base, t, rfl, .refl ranges _, refused (by decide)⟩
  | some controlArea =>
  cases base with
  | none => exact ⟨σ, .invalidParameter, none, t, rfl, .refl ranges _, refused (by decide)⟩
  | some base =>
  by_cases empty : viewSize = 0
  · refine ⟨σ, .invalidParameter, some base, t, ?_, .refl ranges _, refused (by decide)⟩
    simp only [mmMapViewOfSegment, if_pos empty]
  have room := room empty
  by_cases chosen : pageAlignDown base = 0
  · rw [if_pos chosen] at room
    obtain ⟨σ₁, va, t₁, allocated, keeps, holds⟩ := allocate_spec ranges room (show _ ≤ fuel by omega)
    by_cases failed : va = 0
    · subst va
      refine ⟨σ₁, .noMemory, some base, t₁, ?_, keeps, refused (by decide)⟩
      simp only [mmMapViewOfSegment, if_neg empty, if_pos chosen, allocated, Option.bind_eq_bind,
        Option.bind_some, Option.pure_def, if_true]
    · obtain ⟨v, fresh, members, low, high, positive⟩ := holds failed
      have member : v ∈ t₁.inorder := (members v).mpr (.inr rfl)
      have size := keeps.size
      obtain ⟨found, looked, _, complete⟩ :=
        lookup_spec keeps.ranges (va >>> 12) (show _ ≤ fuel by omega)
      have here : found = some v := by
        apply complete v member
        · rw [toNat_shiftRight_page]
          omega
        · rw [toNat_shiftRight_page]
          omega
      subst found
      let vad : MmVad Area :=
        { σ₁.vad v with controlArea, viewOffset := viewOffset.setWidth 32, protection := protect }
      have same : ∀ w ∈ t₁.inorder, ((σ₁.setVad v vad).vad w).startingVpn = (σ₁.vad w).startingVpn ∧
          ((σ₁.setVad v vad).vad w).endingVpn = (σ₁.vad w).endingVpn := by
        intro w _
        by_cases at_ : w = v
        · subst w
          simp [AddressSpace.setVad, vad]
        · simp [AddressSpace.setVad, at_]
      have written : (σ₁.setVad v vad).vad v = vad := if_pos rfl
      refine ⟨σ₁.setVad v vad, .success, some va, t₁, ?_, ⟨?_, keeps.size, fun failed => absurd failed (by decide)⟩, fun _ =>
        ⟨controlArea, base, va, v, rfl, rfl, rfl, empty, fresh, members, ?_, ?_⟩⟩
      · simp only [mmMapViewOfSegment, if_neg empty, if_pos chosen, allocated, Option.bind_eq_bind,
          Option.bind_some, Option.pure_def, if_neg failed, looked, vad]
      · exact keeps.ranges.congr rfl same keeps.ranges.unused keeps.ranges.numbered
      · simp only [AddressSpace.first, AddressSpace.last] at low high
        exact ⟨by rw [AddressSpace.first, written]; exact low, by rw [AddressSpace.last, written]; exact high,
          by rw [written], by rw [written]⟩
      · rw [if_pos chosen]
        exact ⟨failed, σ₁, allocated⟩
  · rw [if_neg chosen] at room
    cases pooled with
    | false =>
      refine ⟨σ, .insufficientResources, some base, t, ?_, .refl ranges _, refused (by decide)⟩
      simp only [mmMapViewOfSegment, if_neg empty, if_neg chosen, if_true]
    | true =>
      have apart := room rfl
      have new : σ.obtained ∉ t.inorder ++ σ.mmVadFreeList := fun member => by
        have := ranges.numbered _ member
        omega
      have ranges₁ : Ranges { σ with obtained := σ.obtained + 1 } t :=
        ranges.congr rfl (fun _ _ => ⟨rfl, rfl⟩) ranges.unused fun v member =>
          Nat.lt_succ_of_lt (ranges.numbered v member)
      have positive := pageAlignDown_pos chosen
      have last : (pageAlignDown base >>> 12 + pageRoundUp viewSize >>> 12 - 1).toNat + 1 =
          (pageAlignDown base >>> 12).toNat + (pageRoundUp viewSize >>> 12).toNat := by
        have one : (1 : BitVec 32).toNat = 1 := rfl
        rw [BitVec.toNat_sub, BitVec.toNat_add, one]
        simp only [toNat_shiftRight_page] at positive ⊢
        omega
      obtain ⟨σ', t', inserted, ranges', size, members, vad, first, above⟩ := ranges₁.insertNew new
        (Nat.lt_succ_self _)
        ⟨pageAlignDown base >>> 12, pageAlignDown base >>> 12 + pageRoundUp viewSize >>> 12 - 1,
          controlArea, protect, viewOffset.setWidth 32⟩
        rfl last
        (fun v member => apart v (ranges.focus.reaches_iff.mpr member))
        (by rw [toNat_shiftRight_page]; omega) (by rw [toNat_shiftRight_page]; omega)
        (show _ ≤ fuel by omega)
      refine ⟨σ', .success, some (pageAlignDown base), t', ?_, ⟨ranges', by omega, fun failed => absurd failed (by decide)⟩,
        fun _ => ⟨controlArea, base, _, _, rfl, rfl, rfl, empty,
          fun member => new (List.mem_append_left _ member), members, ?_, ?_⟩⟩
      · simp only [mmMapViewOfSegment, if_neg empty, if_neg chosen, Bool.true_eq_false, if_false,
          inserted, Option.bind_eq_bind, Option.bind_some, Option.pure_def]
      · have start := toNat_shiftRight_page (pageAlignDown base)
        exact ⟨first.trans start, above.trans (congrArg (· + _) start), by rw [vad], by rw [vad]⟩
      · rw [if_neg chosen]

theorem call_spec (ranges : Ranges σ t) (finds : FindsRoom σ call) (enough : 2 * t.size + 2 ≤ fuel) :
    ∃ σ' ok t', vmCall fuel σ call = some (σ', ok) ∧ Keeps σ σ' t t' ok := by
  cases call with
  | allocateRange available pageCount =>
    obtain ⟨σ', va, t', done, keeps, _⟩ := allocate_spec ranges finds (show _ ≤ fuel by omega)
    exact ⟨σ', _, t', by rw [vmCall, done]; rfl, keeps⟩
  | freeRange virtualAddress => exact free_spec ranges (by omega)
  | mapView available pooled segment baseAddress viewSize protect viewOffset =>
    obtain ⟨σ', status, out, t', done, keeps, _⟩ := map_spec ranges finds enough
    exact ⟨σ', _, t', by rw [vmCall, done]; rfl, keeps⟩
  | unmapView process baseAddress =>
    obtain ⟨σ', status, t', done, keeps⟩ :=
      unmap_spec process baseAddress ranges (show _ ≤ fuel by omega)
    exact ⟨σ', _, t', by rw [vmCall, done]; rfl, keeps⟩

end Calls

/-- No page belongs to two ranges of the tree. -/
def Disjoint (σ : AddressSpace Area) : Prop :=
  ∀ a b, σ.mmKernelVadTree.Reaches a → σ.mmKernelVadTree.Reaches b → a ≠ b →
    ∀ vpn, ¬ (σ.first a ≤ vpn ∧ vpn ≤ σ.last a ∧ σ.first b ≤ vpn ∧ vpn ≤ σ.last b)

theorem Ranges.disjoint {σ : AddressSpace Area} (ranges : Ranges σ t) : Disjoint σ := by
  intro a b reachedA reachedB other vpn both
  have inA := ranges.focus.reaches_iff.mp reachedA
  have inB := ranges.focus.reaches_iff.mp reachedB
  have apart : t.inorder.Pairwise fun a b => σ.last a < σ.first b ∨ σ.last b < σ.first a :=
    ranges.ordered.imp fun before => .inl before
  have : Std.Symm fun a b => σ.last a < σ.first b ∨ σ.last b < σ.first a := ⟨fun _ _ => Or.symm⟩
  rcases apart.forall inA inB other with before | after <;> omega

theorem ranges_initialize : Ranges (mmInitializeVmm Area) .nil :=
  ⟨⟨trivial, rfl, List.nodup_nil, fun k _ => .refl _ k, rfl⟩, trivial, rfl, List.Pairwise.nil,
    fun _ => (nomatch ·), List.nodup_nil, fun _ => (nomatch ·)⟩

/-- In every run in which each call finds room, every state reached has disjoint
ranges, and a call that fails there leaves the tree as it is. -/
theorem vad_runs_disjoint
    (admitted : Along FindsRoom (fun σ call => (vmCall fuel σ call).map Prod.fst)
      (mmInitializeVmm Area) calls) (enough : 2 * calls.length + 2 ≤ fuel) :
    ∃ σ, exec (fun σ call => (vmCall fuel σ call).map Prod.fst) (mmInitializeVmm Area) calls = some σ ∧
      Disjoint σ ∧ ∀ call, FindsRoom σ call → ∃ σ' ok, vmCall fuel σ call = some (σ', ok) ∧
        (ok = false → σ'.mmKernelVadTree = σ.mmKernelVadTree ∧
          ∀ v, σ.mmKernelVadTree.Reaches v → σ'.vad v = σ.vad v) := by
  obtain ⟨σ, ended, t, ranges, size⟩ := exec_invariant
    (P := fun n (σ : AddressSpace Area) => ∃ t, Ranges σ t ∧ t.size ≤ n)
    (fun {n σ call} invariant finds bound => by
      obtain ⟨t, ranges, size⟩ := invariant
      obtain ⟨σ', ok, t', done, keeps⟩ := call_spec ranges finds (show _ ≤ fuel by omega)
      have grown := keeps.size
      exact ⟨σ', by rw [done]; rfl, t', keeps.ranges, by omega⟩)
    ⟨.nil, ranges_initialize, Nat.le_refl 0⟩ admitted (show 0 + calls.length ≤ calls.length by omega)
  refine ⟨σ, ended, ranges.disjoint, fun call finds => ?_⟩
  obtain ⟨σ', ok, t', done, keeps⟩ := call_spec ranges finds (show _ ≤ fuel by omega)
  exact ⟨σ', ok, done, fun failed => ⟨(keeps.unchanged failed).1, fun v reached =>
    (keeps.unchanged failed).2 v (ranges.focus.reaches_iff.mp reached)⟩⟩

theorem vad_runs_disjoint_view : ∃ σ, exec (fun σ call => (vmCall 6 σ call).map Prod.fst)
      (mmInitializeVmm Unit) [.mapView 1 true (some none) (some 0x400000) 0x2000 4 0,
        .allocateRange 1 3] = some σ ∧
      Disjoint σ ∧ ∀ call, FindsRoom σ call → ∃ σ' ok, vmCall 6 σ call = some (σ', ok) ∧
        (ok = false → σ'.mmKernelVadTree = σ.mmKernelVadTree ∧
          ∀ v, σ.mmKernelVadTree.Reaches v → σ'.vad v = σ.vad v) := by
  apply vad_runs_disjoint
  · refine ⟨fun _ => ?_, fun σ₁ stepped => ?_⟩
    · rw [if_neg (by decide)]
      intro _ v reached
      induction reached with
      | root found => cases found
      | child _ found => cases found
    · obtain rfl := Option.some.inj stepped
      refine ⟨fun _ _ _ => ⟨fun _ _ v reached => .inl ?_, fun above => ?_⟩, fun σ₂ stepped => trivial⟩
      · have only : v = 0 := by
          induction reached with
          | root found => exact (Option.some.inj found).symm
          | @child k s x _ found same =>
            subst k
            cases s <;> cases found
        subst v
        decide
      · exact absurd (above 0 (.root rfl)) (by decide)
  · decide

/-- Two views that are mapped at addresses of the caller's choice may overlap. -/
theorem explicit_views_overlap : ∃ σ, exec (fun σ call => (vmCall 6 σ call).map Prod.fst)
      (mmInitializeVmm Unit) [.mapView 1 true (some none) (some 0x400000) 0x2000 4 0,
        .mapView 1 true (some none) (some 0x401000) 0x1000 4 0] = some σ ∧ ¬ Disjoint σ := by
  refine ⟨_, rfl, fun disjoint => ?_⟩
  exact disjoint 0 1 (.root rfl) (.child (s := .right) (k := 0) (.root rfl) rfl) (by decide) 0x401
    (by decide)

end VeaOS.Mm
