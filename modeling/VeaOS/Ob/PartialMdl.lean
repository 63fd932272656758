import VeaOS.Ob.Mdl

/-! A partial list maps the bytes of its range as the list that it was made from. -/
namespace VeaOS.Ob

section Pages

theorem addressAndSizeToSpanPages_eq (some : 0 < length) (inside : va + length ≤ 0x100000000) :
    addressAndSizeToSpanPages va length = pagesSpanned va length ∨
      addressAndSizeToSpanPages va length = 0 ∧ 0x100000 ≤ pagesSpanned va length := by
  simp only [addressAndSizeToSpanPages, pagesSpanned, pageSize]
  omega

theorem pagesSpanned_pos (va length : Nat) : 0 < pagesSpanned va length := Nat.succ_pos _

end Pages

section Allocation

theorem obioAllocateMdl_whole {tables : PageTables} {virtualAddress length : BitVec 32}
    {oipHasMdl allocated : Bool} {mdl : Mdl}
    (built : obioAllocateMdl tables virtualAddress length oipHasMdl allocated = some mdl) :
    mdl.Whole := by
  simp only [obioAllocateMdl] at built
  split at built
  next => cases built
  next valid =>
    split at built
    next => cases built
    next =>
      split at built
      next => cases built
      next few =>
        split at built
        next => cases built
        next =>
          simp only [Option.bind_eq_bind, Option.bind_eq_some_iff] at built
          obtain ⟨frames, _, same⟩ := built
          cases same
          have nonempty : length.toNat ≠ 0 := fun zero => valid (Or.inl (BitVec.eq_of_toNat_eq zero))
          have inside : virtualAddress.toNat + length.toNat ≤ 0x100000000 := by omega
          have pages := addressAndSizeToSpanPages_eq (Nat.pos_of_ne_zero nonempty) inside
          have spanned : pagesSpanned virtualAddress.toNat length.toNat =
              (virtualAddress.toNat % pageSize + length.toNat + (pageSize - 1)) / pageSize := by
            simp only [pagesSpanned, pageSize]
            omega
          simp only [sizeofMdl, sizeofPfnNumber] at few
          refine ⟨?_, Nat.mod_lt _ (by decide), Nat.pos_of_ne_zero nonempty, ?_, ?_⟩
          · simp only [pageAlign, pageSize]
            omega
          · simp only [pageAlign, pageSize]
            omega
          · rw [← spanned, BitVec.toNat_ofNat]
            simp only [sizeofMdl, sizeofPfnNumber]
            omega

end Allocation

section Parts
variable {source target : Mdl} {virtualAddress length : BitVec 32}

/-- The range is part of the buffer of the list. -/
def Mdl.holds (mdl : Mdl) (va length : Nat) : Prop :=
  mdl.startVa + mdl.byteOffset ≤ va ∧ va + length ≤ mdl.startVa + mdl.byteOffset + mdl.byteCount

/-- The list has room for the pages of a range. -/
def Mdl.hasRoom (mdl : Mdl) (va length : Nat) : Prop :=
  sizeofMdl + pagesSpanned va length * sizeofPfnNumber ≤ mdl.size.toNat

instance (mdl : Mdl) (va length : Nat) : Decidable (mdl.holds va length) := inferInstanceAs (Decidable (_ ∧ _))

instance (mdl : Mdl) (va length : Nat) : Decidable (mdl.hasRoom va length) :=
  inferInstanceAs (Decidable (_ ≤ _))

/-- The list for a part of the source's buffer, in the memory of the target. -/
def partOf (source target : Mdl) (va length : Nat) : Mdl :=
  { target with
    next := 0
    mdlFlags := mdlPartial ||| source.mdlFlags &&& mdlSourceIsNonpagedPool
    process := source.process
    mappedSystemVa := 0
    startVa := pageAlign va
    byteOffset := va % pageSize
    byteCount := length
    pfnArray := fun i =>
      if i < pagesSpanned va length then source.pfnArray ((pageAlign va - source.startVa) / pageSize + i)
      else target.pfnArray i }

theorem obioBuildPartialMdl_eq (whole : source.Whole) (target : Mdl) (given : virtualAddress ≠ 0)
    (nonempty : length ≠ 0) :
    obioBuildPartialMdl (some source) (some target) false virtualAddress length =
      if source.holds virtualAddress.toNat length.toNat ∧ target.hasRoom virtualAddress.toNat length.toNat then
        (.success, some (partOf source target virtualAddress.toNat length.toNat))
      else (.invalidParameter, some target) := by
  obtain ⟨aligned, offset, bytes, inside, room⟩ := whole
  have positive : 0 < length.toNat := Nat.pos_of_ne_zero fun zero => nonempty (BitVec.eq_of_toNat_eq zero)
  have targetBound := target.size.isLt
  simp only [obioBuildPartialMdl, given, nonempty, Bool.false_eq_true, false_or]
  generalize virtualAddress.toNat = va, length.toNat = count at *
  by_cases holds : source.holds va count
  · obtain ⟨low, high⟩ := holds
    have inRange : va + count ≤ 0x100000000 := by omega
    have spans := addressAndSizeToSpanPages_eq positive inRange
    rw [if_neg (by omega), if_neg (by simp only [pageSize, sizeofMdl] at *; omega), if_neg (by omega)]
    by_cases fits : target.hasRoom va count
    · have pages : addressAndSizeToSpanPages va count = pagesSpanned va count := by
        refine spans.resolve_right fun wraps => ?_
        simp only [Mdl.hasRoom, sizeofMdl, sizeofPfnNumber] at fits
        omega
      have some := pagesSpanned_pos va count
      have required : ¬ (pagesSpanned va count = 0 ∨ target.size.toNat <
          (sizeofMdl + pagesSpanned va count * sizeofPfnNumber) % 0x100000000) := by
        simp only [Mdl.hasRoom, sizeofMdl, sizeofPfnNumber] at fits ⊢
        omega
      have frames : ¬ ((source.size.toNat - sizeofMdl) / sizeofPfnNumber <
            (pageAlign va - source.startVa) / pageSize ∨
          (source.size.toNat - sizeofMdl) / sizeofPfnNumber - (pageAlign va - source.startVa) / pageSize <
            pagesSpanned va count) := by
        simp only [sizeofMdl, sizeofPfnNumber, pageSize, pageAlign, pagesSpanned] at *
        omega
      rw [pages, if_neg required, if_neg frames, if_pos ⟨⟨low, high⟩, fits⟩, partOf]
    · have required : addressAndSizeToSpanPages va count = 0 ∨ target.size.toNat <
          (sizeofMdl + addressAndSizeToSpanPages va count * sizeofPfnNumber) % 0x100000000 := by
        obtain pages | wraps := spans
        · right
          rw [pages]
          have few : pagesSpanned va count ≤ 0x100000 := by
            simp only [pagesSpanned, pageSize]
            omega
          simp only [Mdl.hasRoom, sizeofMdl, sizeofPfnNumber] at fits ⊢
          omega
        · exact Or.inl wraps.1
      rw [if_pos required, if_neg fun both => fits both.2]
  · have outside : ¬ (source.startVa + source.byteOffset ≤ va ∧
        va + count ≤ source.startVa + source.byteOffset + source.byteCount) := holds
    rw [if_neg fun both : source.holds va count ∧ _ => holds both.1]
    split
    next => rfl
    next =>
      split
      next => rfl
      next => rw [if_pos (by omega)]

theorem partOf_maps (aligned : source.startVa % pageSize = 0) (holds : source.holds va count) (low : va ≤ v)
    (high : v < va + count) : (partOf source target va count).maps v = source.maps v := by
  obtain ⟨behind, _⟩ := holds
  have page : (v - pageAlign va) / pageSize < pagesSpanned va count := by
    simp only [pageAlign, pagesSpanned, pageSize]
    omega
  have index : (pageAlign va - source.startVa) / pageSize + (v - pageAlign va) / pageSize =
      (v - source.startVa) / pageSize := by
    simp only [pageAlign, pageSize] at *
    omega
  have place : (v - pageAlign va) % pageSize = (v - source.startVa) % pageSize := by
    simp only [pageAlign, pageSize] at *
    omega
  simp only [Mdl.maps, partOf, if_pos page, index, place]

theorem partOf_whole (whole : source.Whole) (nonempty : 0 < count) (holds : source.holds va count)
    (room : target.hasRoom va count) : (partOf source target va count).Whole := by
  obtain ⟨behind, ends⟩ := holds
  have inside := whole.inside
  refine ⟨?_, Nat.mod_lt _ (by decide), nonempty, ?_, ?_⟩
  · simp only [partOf, pageAlign, pageSize]
    omega
  · simp only [partOf, pageAlign, pageSize]
    omega
  · simp only [partOf, Mdl.hasRoom, pagesSpanned, sizeofMdl, sizeofPfnNumber, pageSize] at *
    omega

theorem Built.whole {mdl : Mdl} (built : Built mdl) : mdl.Whole := by
  induction built with
  | allocated tables virtualAddress length oipHasMdl allocated built => exact obioAllocateMdl_whole built
  | @partialOf source target mdl virtualAddress length _ built ih =>
    have given : virtualAddress ≠ 0 := by
      rintro rfl
      simp [obioBuildPartialMdl] at built
    have nonempty : length ≠ 0 := by
      rintro rfl
      simp [obioBuildPartialMdl] at built
    rw [obioBuildPartialMdl_eq ih target given nonempty] at built
    split at built
    next both =>
      cases built
      have positive := Nat.pos_of_ne_zero fun zero => nonempty (BitVec.eq_of_toNat_eq zero)
      exact partOf_whole ih positive both.1 both.2
    next => cases built

/-- A partial list is built exactly for a range of the source's buffer that the target has room
for, it maps the bytes of the range as the source does, and without it the target stays. -/
theorem partial_mdl_correct (built : Built source) (target : Mdl) (given : virtualAddress ≠ 0)
    (nonempty : length ≠ 0) :
    ((obioBuildPartialMdl (some source) (some target) false virtualAddress length).1 = .success ↔
        source.holds virtualAddress.toNat length.toNat ∧ target.hasRoom virtualAddress.toNat length.toNat) ∧
      ((obioBuildPartialMdl (some source) (some target) false virtualAddress length).1 = .success →
        ∃ mdl, (obioBuildPartialMdl (some source) (some target) false virtualAddress length).2 = some mdl ∧
          mdl.size = target.size ∧ ∀ v, virtualAddress.toNat ≤ v → v < virtualAddress.toNat + length.toNat →
            mdl.maps v = source.maps v) ∧
      ((obioBuildPartialMdl (some source) (some target) false virtualAddress length).1 ≠ .success →
        (obioBuildPartialMdl (some source) (some target) false virtualAddress length).2 = some target) := by
  have whole := built.whole
  rw [obioBuildPartialMdl_eq whole target given nonempty]
  split
  next both =>
    refine ⟨⟨fun _ => both, fun _ => rfl⟩, fun _ => ⟨_, rfl, rfl, fun v low high => ?_⟩,
      fun failed => absurd rfl failed⟩
    exact partOf_maps whole.aligned both.1 low high
  next neither =>
    exact ⟨⟨fun same => (by cases same), fun both => absurd both neither⟩,
      fun same => (by cases same), fun _ => rfl⟩

theorem partOf_partOf (aligned : source.startVa % pageSize = 0) (outer : source.holds va count) (spare target : Mdl)
    (inner : (partOf source spare va count).holds v n) (some : 0 < n) :
    partOf (partOf source spare va count) target v n = partOf source target v n := by
  obtain ⟨low, high⟩ := inner
  obtain ⟨behind, ends⟩ := outer
  simp only [partOf, pageAlign, pageSize] at low high
  have flags : mdlPartial ||| (mdlPartial ||| source.mdlFlags &&& mdlSourceIsNonpagedPool) &&& mdlSourceIsNonpagedPool =
      mdlPartial ||| source.mdlFlags &&& mdlSourceIsNonpagedPool := by
    ext bit
    simp only [BitVec.getElem_or, BitVec.getElem_and]
    grind
  simp only [partOf, flags, Mdl.mk.injEq, true_and]
  funext i
  split
  next few =>
    have index : (pageAlign v - pageAlign va) / pageSize + i < pagesSpanned va count := by
      simp only [pageAlign, pagesSpanned, pageSize] at *
      omega
    rw [if_pos index]
    congr 1
    simp only [pageAlign, pageSize] at *
    omega
  next => rfl

theorem obioBuildPartialMdl_refused (refused : virtualAddress = 0 ∨ length = 0) (source target : Mdl) :
    obioBuildPartialMdl (some source) (some target) false virtualAddress length =
      (.invalidParameter, some target) := by
  obtain rfl | rfl := refused
  · simp [obioBuildPartialMdl]
  · simp [obioBuildPartialMdl]

/-- A partial list of a partial list is the partial list of the first one. -/
theorem partial_of_partial (built : Built source)
    (first : obioBuildPartialMdl (some source) (some spare) false va count = (.success, some middle))
    (target : Mdl) (virtualAddress length : BitVec 32) :
    obioBuildPartialMdl (some middle) (some target) false virtualAddress length =
      if middle.holds virtualAddress.toNat length.toNat then
        obioBuildPartialMdl (some source) (some target) false virtualAddress length
      else (.invalidParameter, some target) := by
  by_cases refused : virtualAddress = 0 ∨ length = 0
  · rw [obioBuildPartialMdl_refused refused, obioBuildPartialMdl_refused refused, ite_self]
  obtain ⟨given, nonempty⟩ := not_or.mp refused
  have whole := built.whole
  have positive := Nat.pos_of_ne_zero fun zero => nonempty (BitVec.eq_of_toNat_eq zero)
  rw [obioBuildPartialMdl_eq (Built.partialOf va count built first).whole target given nonempty,
    obioBuildPartialMdl_eq whole target given nonempty]
  obtain ⟨begun, more⟩ : va ≠ 0 ∧ count ≠ 0 := not_or.mp fun none => by
    rw [obioBuildPartialMdl_refused none] at first
    cases first
  rw [obioBuildPartialMdl_eq whole spare begun more] at first
  split at first
  next both =>
    cases first
    by_cases inner : (partOf source spare va.toNat count.toNat).holds virtualAddress.toNat length.toNat
    · have outer : source.holds virtualAddress.toNat length.toNat := by
        obtain ⟨⟨low, high⟩, -⟩ := both
        obtain ⟨low', high'⟩ := inner
        simp only [partOf, pageAlign, pageSize] at low' high'
        exact ⟨by omega, by omega⟩
      simp only [inner, outer, true_and, if_true, partOf_partOf whole.aligned both.1 spare target inner positive]
    · simp only [inner, false_and, if_false]
  next => cases first

end Parts

section Sample

/-- Pages of 4 MiB that map every address to itself. -/
def identityTables : PageTables := ⟨fun i => BitVec.ofNat 32 (i * 0x400000) ||| 0x83, fun _ => 0⟩

def sampleMdl : Mdl where
  next := 0
  size := 44
  mdlFlags := 0
  process := 0
  mappedSystemVa := 0
  startVa := 0x1000
  byteCount := 0x3000
  byteOffset := 0x234
  pfnArray i := [1, 2, 3, 4].getD i 0

theorem sampleMdl_built : Built sampleMdl := by
  have frames : mdlFrames identityTables 4 0x1000#32 = some [1, 2, 3, 4] := by decide
  refine .allocated identityTables 0x1234 0x3000 false true ?_
  simp [obioAllocateMdl, addressAndSizeToSpanPages, pageAlign, pageSize, sizeofMdl, sizeofPfnNumber, frames,
    sampleMdl]

/-- The second page of the buffer, into memory for one frame. -/
theorem partial_mdl_sample :
    (obioBuildPartialMdl (some sampleMdl) (some { sampleMdl with size := 32 }) false 0x2000 0x1000).1 =
      .success :=
  (partial_mdl_correct sampleMdl_built { sampleMdl with size := 32 } (by decide) (by decide)).1.mpr
    ⟨by decide, by decide⟩

theorem partial_of_partial_sample : ∃ middle,
    obioBuildPartialMdl (some sampleMdl) (some sampleMdl) false 0x1800#32 0x1800#32 = (.success, some middle) ∧
    obioBuildPartialMdl (some middle) (some sampleMdl) false 0x2000#32 0x800#32 =
      if middle.holds (0x2000#32).toNat (0x800#32).toNat then
        obioBuildPartialMdl (some sampleMdl) (some sampleMdl) false 0x2000#32 0x800#32
      else (.invalidParameter, some sampleMdl) := by
  have given : 0x1800#32 ≠ 0 := by decide
  have first := (obioBuildPartialMdl_eq sampleMdl_built.whole sampleMdl given given).trans
    (if_pos ⟨by decide, by decide⟩)
  exact ⟨_, first, partial_of_partial sampleMdl_built first sampleMdl 0x2000 0x800⟩

end Sample

end VeaOS.Ob
