import VeaOS.Vk.HiveBins

/-! Cells taken from the bins of a hive. What a bin holds beyond the free offset
was never given out; an allocation takes such bytes, of the last bin or of a new
one, and leaves all others as they are. -/
namespace VeaOS.Vk
open Foundation BitVec List Option

section Marking
variable (H : Hive) (cell : BitVec 32)

theorem mark_eq : ∃ dirtyVector isDirty, vkpMarkCellDirty H cell = { H with dirtyVector, isDirty } := by
  rw [vkpMarkCellDirty]
  split
  next => exact ⟨_, _, rfl⟩
  next =>
    dsimp only
    split
    next => exact ⟨_, _, rfl⟩
    next => split <;> exact ⟨_, _, rfl⟩

@[simp] theorem mark_memory : (vkpMarkCellDirty H cell).memory = H.memory := by
  obtain ⟨_, _, marked⟩ := mark_eq H cell
  rw [marked]

@[simp] theorem mark_freeOffset : (vkpMarkCellDirty H cell).freeOffset = H.freeOffset := by
  obtain ⟨_, _, marked⟩ := mark_eq H cell
  rw [marked]

@[simp] theorem mark_length : (vkpMarkCellDirty H cell).length = H.length := by
  obtain ⟨_, _, marked⟩ := mark_eq H cell
  rw [marked]

@[simp] theorem mark_stableBins : (vkpMarkCellDirty H cell).stableBins = H.stableBins := by
  obtain ⟨_, _, marked⟩ := mark_eq H cell
  rw [marked]

@[simp] theorem mark_volatileBins : (vkpMarkCellDirty H cell).volatileBins = H.volatileBins := by
  obtain ⟨_, _, marked⟩ := mark_eq H cell
  rw [marked]

theorem mark_pointer (offset : BitVec 32) :
    vkpGetCellPointer (vkpMarkCellDirty H cell) offset = vkpGetCellPointer H offset := by
  obtain ⟨_, _, marked⟩ := mark_eq H cell
  rw [marked]
  rfl

end Marking

theorem newBin_other {m : Memory Nat} (other : b ≠ block) :
    newBin m block relativeOffset time b i = m b i := by
  rw [newBin, Memory.writeBytes_block other, Memory.write32_block other, Memory.write32_block other,
    Memory.write32_block other, Memory.zeroBytes_block other]

/-- The bins of a hive do not meet, and the free offsets are in the last ones. -/
structure BinsKept (H : Hive) : Prop where
  chained : Chained 0 H.stableBins H.length.toNat
  room : H.length.toNat + 0x1000 * (maxStableBins - H.stableBins.length) ≤ 0x80000000
  loaded : H.stableBins ≠ []
  apart : (H.stableBins.map StableBin.binBase ++ H.volatileBins).Nodup
  known : b ∈ H.stableBins.map StableBin.binBase ++ H.volatileBins → b < H.blocks
  few : H.volatileBins.length ≤ maxVolatileBins
  free : H.freeOffset.toNat ≤ H.length.toNat
  filled : H.freeOffset.toNat < H.length.toNat → ∃ bins bin, H.stableBins = bins ++ [bin] ∧
    bins ≠ [] ∧ bin.binSize = vkBinSize ∧ bin.binBaseOffset.toNat + 24 ≤ H.freeOffset.toNat
  current : H.volatileBins ≠ [] →
    24 ≤ H.currentBinFreeOffset.toNat ∧ H.currentBinFreeOffset.toNat ≤ 0x1000

/-- A byte that no cell or header was given. -/
def Fresh (H : Hive) (b i : Nat) : Prop :=
  H.blocks ≤ b ∨
    (∃ bin, H.stableBins.getLast? = some bin ∧ b = bin.binBase ∧
      H.freeOffset.toNat ≤ bin.binBaseOffset.toNat + i) ∨
    H.volatileBins.getLast? = some b ∧ H.currentBinFreeOffset.toNat ≤ i

/-- What stays of a hive that gives out bytes. -/
structure Grows (H H' : Hive) : Prop where
  kept : BinsKept H'
  fewer : Fresh H' b i → Fresh H b i
  memory : ¬ Fresh H b i → H'.memory b i = H.memory b i
  pointers : vkpGetCellPointer H offset = some cell → vkpGetCellPointer H' offset = some cell
  stable : ∃ more, H'.stableBins = H.stableBins ++ more
  volatile : ∃ more, H'.volatileBins = H.volatileBins ++ more

namespace Grows
variable {H H' H'' : Hive}

theorem refl (kept : BinsKept H) : Grows H H :=
  ⟨kept, id, fun _ => rfl, id, ⟨[], (append_nil _).symm⟩, ⟨[], (append_nil _).symm⟩⟩

theorem trans (first : Grows H H') (second : Grows H' H'') : Grows H H'' := by
  obtain ⟨stable, isStable⟩ := first.stable
  obtain ⟨stable', isStable'⟩ := second.stable
  obtain ⟨volatile, isVolatile⟩ := first.volatile
  obtain ⟨volatile', isVolatile'⟩ := second.volatile
  constructor
  · exact second.kept
  · exact fun fresh => first.fewer (second.fewer fresh)
  · intro b i used
    rw [second.memory fun fresh => used (first.fewer fresh), first.memory used]
  · exact fun found => second.pointers (first.pointers found)
  · exact ⟨stable ++ stable', by rw [isStable', isStable, List.append_assoc]⟩
  · exact ⟨volatile ++ volatile', by rw [isVolatile', isVolatile, List.append_assoc]⟩

end Grows

/-- A cell that was given out: bytes that were fresh and are no more, within a bin
beyond its header. -/
structure Allocated (H H' : Hive) (offset : BitVec 32) (cell : Pointer Nat) (size : Nat) : Prop
    extends Grows H H' where
  pointer : vkpGetCellPointer H' offset = some cell
  nonzero : offset ≠ 0
  fresh : cell.Spans size b i → Fresh H b i
  used : cell.Spans size b i → ¬ Fresh H' b i
  header : 24 ≤ cell.offset
  inside : cell.offset + size ≤ 0x1000

theorem BinsKept.mark (kept : BinsKept H) (cell : BitVec 32) : BinsKept (vkpMarkCellDirty H cell) := by
  obtain ⟨_, _, marked⟩ := mark_eq H cell
  obtain ⟨chained, room, loaded, apart, known, few, free, filled, current⟩ := kept
  rw [marked]
  exact ⟨chained, room, loaded, apart, known, few, free, filled, current⟩

theorem mark_fresh (cell : BitVec 32) : Fresh (vkpMarkCellDirty H cell) b i ↔ Fresh H b i := by
  obtain ⟨_, _, marked⟩ := mark_eq H cell
  rw [marked]
  rfl

theorem Grows.mark (grows : Grows H H') (cell : BitVec 32) : Grows H (vkpMarkCellDirty H' cell) := by
  constructor
  · exact grows.kept.mark cell
  · intro b i fresh
    rw [mark_fresh] at fresh
    exact grows.fewer fresh
  · intro b i used
    rw [mark_memory]
    exact grows.memory used
  · intro offset p found
    rw [mark_pointer]
    exact grows.pointers found
  · rw [mark_stableBins]
    exact grows.stable
  · rw [mark_volatileBins]
    exact grows.volatile

theorem Grows.allocated (grows : Grows H H') (cell : Allocated H' H'' offset p size) :
    Allocated H H'' offset p size :=
  { cell with
    toGrows := grows.trans cell.toGrows
    fresh := fun spans => grows.fewer (cell.fresh spans) }

section Volatile
variable {H H' : Hive} {size : BitVec 32} {growth : Growth}

theorem volatile_grows (kept : BinsKept H) (grown : hvAllocateVolatileCell H growth = some H') :
    Grows H H' ∧ H'.volatileBins = H.volatileBins ++ [H.blocks] ∧
      H'.currentBinFreeOffset = BitVec.ofNat 32 sizeofBaseBlock := by
  rw [hvAllocateVolatileCell] at grown
  split at grown
  next => cases grown
  next room =>
    obtain rfl := some.inj grown
    have more : H.volatileBins.length < maxVolatileBins := by omega
    refine ⟨⟨⟨?_, ?_, ?_, ?_, ?_, ?_, ?_, ?_, ?_⟩, ?_, ?_, ?_, ?_, ?_⟩, rfl, rfl⟩
    · exact kept.chained
    · exact kept.room
    · exact kept.loaded
    · rw [← List.append_assoc, List.nodup_append_comm, List.singleton_append, List.nodup_cons]
      exact ⟨fun member => Nat.lt_irrefl _ (kept.known member), kept.apart⟩
    · intro b member
      rw [← List.append_assoc, List.mem_append, List.mem_singleton] at member
      obtain old | rfl := member
      · exact Nat.lt_succ_of_lt (kept.known old)
      · exact Nat.lt_succ_self _
    · rw [List.length_append]
      exact more
    · exact kept.free
    · exact kept.filled
    · exact fun _ => ⟨Nat.le_refl _, (by decide : (BitVec.ofNat 32 sizeofBaseBlock).toNat ≤ 0x1000)⟩
    · rintro b i (new | stable | ⟨last, _⟩)
      · exact Or.inl (Nat.le_of_succ_le new)
      · exact Or.inr (Or.inl stable)
      · rw [List.getLast?_concat] at last
        exact Or.inl (Nat.le_of_eq (some.inj last))
    · intro b i used
      apply newBin_other
      rintro rfl
      exact used (Or.inl (Nat.le_refl _))
    · intro offset cell found
      exact pointer_grow found (List.append_nil _).symm rfl
    · exact ⟨[], (List.append_nil _).symm⟩
    · exact ⟨_, rfl⟩

theorem volatileFull_iff (kept : BinsKept H) (fits : size.toNat ≤ 4072) :
    volatileFull H size = false ↔ H.volatileBins ≠ [] ∧
      H.currentBinFreeOffset.toNat + (size.toNat + 3) / 4 * 4 ≤ 0x1000 := by
  rw [volatileFull, Bool.or_eq_false_iff, beq_eq_false_iff_ne, ne_eq, List.length_eq_zero_iff,
    decide_eq_false_iff_not, BitVec.not_lt]
  apply and_congr_right
  intro nonempty
  have current := kept.current nonempty
  rw [BitVec.le_def, BitVec.toNat_add, vkAlignUp_toNat size (by omega),
    Nat.mod_eq_of_lt (by omega)]
  rfl

theorem takeVolatile_spec (kept : BinsKept H) (fits : size.toNat ≤ 4072) (positive : size ≠ 0)
    (room : volatileFull H size = false) (taken : takeVolatile H size = some (H', offset, cell)) :
    Allocated H H' (vkMakeVolatileOffset offset) cell size.toNat ∧ cell.block ∈ H'.volatileBins := by
  obtain ⟨nonempty, room⟩ := (volatileFull_iff kept fits).mp room
  have current := kept.current nonempty
  have size0 : size.toNat ≠ 0 := fun zero => positive (BitVec.eq_of_toNat_eq zero)
  obtain ⟨bin, last, equal⟩ := map_eq_some_iff.mp taken
  obtain ⟨rfl, rfl, rfl⟩ := equal
  obtain ⟨bins, split⟩ : ∃ bins, H.volatileBins = bins ++ [bin] := by
    obtain ⟨bins, split⟩ := List.getLast?_eq_some_iff.mp last
    exact ⟨bins, split⟩
  have few := kept.few
  rw [split, List.length_append, List.length_singleton, maxVolatileBins] at few
  have next : (H.currentBinFreeOffset + vkAlignUp size 4).toNat =
      H.currentBinFreeOffset.toNat + (size.toNat + 3) / 4 * 4 := by
    rw [BitVec.toNat_add, vkAlignUp_toNat size (by omega), Nat.mod_eq_of_lt (by omega)]
  have raw : (BitVec.ofNat 32 (H.volatileBins.length - 1) * vkBinSize + H.currentBinFreeOffset).toNat =
      bins.length * 0x1000 + H.currentBinFreeOffset.toNat := by
    rw [split, List.length_append, List.length_singleton, Nat.add_sub_cancel, BitVec.toNat_add,
      BitVec.toNat_mul, BitVec.toNat_ofNat, show vkBinSize.toNat = 0x1000 from rfl]
    omega
  have bound : (BitVec.ofNat 32 (H.volatileBins.length - 1) * vkBinSize +
      H.currentBinFreeOffset).toNat < 0x80000000 := by
    rw [raw]
    omega
  have grows : Grows H { H with currentBinFreeOffset := H.currentBinFreeOffset + vkAlignUp size 4 } := by
    refine ⟨?_, ?_, fun _ => rfl, id, ⟨[], (List.append_nil _).symm⟩, ⟨[], (List.append_nil _).symm⟩⟩
    · exact { kept with current := fun _ => by rw [next]; omega }
    · rintro b i (new | stable | ⟨last, beyond⟩)
      · exact Or.inl new
      · exact Or.inr (Or.inl stable)
      · rw [next] at beyond
        exact Or.inr (Or.inr ⟨last, by omega⟩)
  have low : H.currentBinFreeOffset.toNat < 0x1000 := by omega
  refine ⟨⟨grows, ?_, ?_, ?_, ?_, current.1, ?_⟩, List.mem_of_getLast? last⟩
  · have found : H.volatileBins[(bins.length * 0x1000 + H.currentBinFreeOffset.toNat) / 0x1000]? =
        some bin := by
      rw [show (bins.length * 0x1000 + H.currentBinFreeOffset.toNat) / 0x1000 = bins.length by omega, split]
      exact List.getElem?_concat_length
    rw [← raw] at found
    have cell := volatile_pointer (H := { H with
      currentBinFreeOffset := H.currentBinFreeOffset + vkAlignUp size 4 }) bound found
    rw [raw, show (bins.length * 0x1000 + H.currentBinFreeOffset.toNat) % 0x1000 =
      H.currentBinFreeOffset.toNat by omega] at cell
    exact cell
  · intro zero
    have offset := makeVolatile_toNat bound
    rw [zero, show (0 : BitVec 32).toNat = 0 from rfl] at offset
    omega
  · rintro b i ⟨rfl, low, high⟩
    exact Or.inr (Or.inr ⟨last, low⟩)
  · rintro b i ⟨rfl, low, high⟩ (new | ⟨other, found, same, _⟩ | ⟨_, beyond⟩)
    · exact Nat.not_le_of_lt (kept.known (List.mem_append_right _ (List.mem_of_getLast? last))) new
    · exact (List.nodup_append.mp kept.apart).2.2 _
        (List.mem_map_of_mem (List.mem_of_getLast? found)) _ (List.mem_of_getLast? last) same.symm
    · rw [next] at beyond
      dsimp only at high
      omega
  · dsimp only
    omega

theorem allocateVolatile_spec (kept : BinsKept H) (fits : size.toNat ≤ 4072)
    (allocated : vkpAllocateVolatileCell H size growth = (H', result)) :
    (result = none → H' = H) ∧ ∀ offset cell, result = some (offset, cell) →
      Allocated H H' (vkMakeVolatileOffset offset) cell size.toNat ∧ cell.block ∈ H'.volatileBins := by
  rw [vkpAllocateVolatileCell] at allocated
  split at allocated
  next =>
    obtain ⟨rfl, rfl⟩ := Prod.mk.inj allocated
    exact ⟨fun _ => rfl, nofun⟩
  next positive =>
    dsimp only at allocated
    split at allocated
    next =>
      obtain ⟨rfl, rfl⟩ := Prod.mk.inj allocated
      exact ⟨fun _ => rfl, nofun⟩
    next H₂ offset cell taken =>
      obtain ⟨rfl, rfl⟩ := Prod.mk.inj allocated
      refine ⟨nofun, fun _ _ same => ?_⟩
      obtain ⟨rfl, rfl⟩ := Prod.mk.inj (some.inj same)
      obtain ⟨H₁, grown, taken⟩ := bind_eq_some_iff.mp taken
      split at grown
      next full =>
        obtain ⟨grows, bins, current⟩ := volatile_grows kept grown
        have room : volatileFull H₁ size = false := by
          rw [volatileFull_iff grows.kept fits, bins, current]
          refine ⟨by simp, ?_⟩
          rw [show (BitVec.ofNat 32 sizeofBaseBlock).toNat = 24 from rfl]
          omega
        obtain ⟨cell, inBin⟩ := takeVolatile_spec grows.kept fits positive room taken
        exact ⟨grows.allocated cell, inBin⟩
      next room =>
        obtain rfl := some.inj grown
        exact takeVolatile_spec kept fits positive (Bool.eq_false_of_not_eq_true room) taken

end Volatile

section Stable
variable {H H' : Hive} {size : BitVec 32} {growth : Growth}

theorem stableFull_iff (kept : BinsKept H) (fits : size.toNat ≤ 4072) :
    stableFull H size = false ↔ H.freeOffset ≠ 0 ∧
      H.freeOffset.toNat + (size.toNat + 3) / 4 * 4 ≤ H.length.toNat := by
  have room := kept.room
  have free := kept.free
  rw [stableFull, Bool.or_eq_false_iff, beq_eq_false_iff_ne, decide_eq_false_iff_not, BitVec.not_lt,
    BitVec.le_def, BitVec.toNat_add, vkAlignUp_toNat size (by omega), Nat.mod_eq_of_lt (by omega)]

theorem stable_grows (kept : BinsKept H) (grown : hvAllocateStableCell H growth = some H') :
    Grows H H' ∧ H'.freeOffset.toNat = H.length.toNat + 24 ∧ H'.length.toNat = H.length.toNat + 0x1000 := by
  rw [hvAllocateStableCell] at grown
  split at grown
  next => cases grown
  next more =>
    obtain rfl := some.inj grown
    have few : H.stableBins.length < maxStableBins := by omega
    have room := kept.room
    have length : (H.length + vkBinSize).toNat = H.length.toNat + 0x1000 := by
      rw [BitVec.toNat_add, show vkBinSize.toNat = 0x1000 from rfl, Nat.mod_eq_of_lt (by omega)]
    have free : (H.length + BitVec.ofNat 32 sizeofBaseBlock).toNat = H.length.toNat + 24 := by
      rw [BitVec.toNat_add, show (BitVec.ofNat 32 sizeofBaseBlock).toNat = 24 from rfl,
        Nat.mod_eq_of_lt (by omega)]
    have kept' : BinsKept { H with
        memory := newBin H.memory H.blocks H.length 0
        blocks := H.blocks + 1
        stableBins := H.stableBins ++ [⟨H.blocks, vkBinSize, H.length⟩]
        freeOffset := H.length + BitVec.ofNat 32 sizeofBaseBlock
        length := H.length + vkBinSize } := by
      constructor
      · rw [length]
        exact kept.chained.append rfl
      · rw [length, List.length_append, List.length_singleton]
        omega
      · exact List.append_ne_nil_of_left_ne_nil kept.loaded _
      · rw [List.map_append, List.append_assoc, List.map_singleton, List.singleton_append,
          List.nodup_middle, List.nodup_cons]
        exact ⟨fun member => Nat.lt_irrefl _ (kept.known member), kept.apart⟩
      · intro b member
        rw [List.map_append, List.append_assoc, List.map_singleton, List.singleton_append,
          List.mem_append, List.mem_cons] at member
        obtain stable | rfl | volatile := member
        · exact Nat.lt_succ_of_lt (kept.known (List.mem_append_left _ stable))
        · exact Nat.lt_succ_self _
        · exact Nat.lt_succ_of_lt (kept.known (List.mem_append_right _ volatile))
      · exact kept.few
      · rw [length, free]
        omega
      · intro _
        exact ⟨H.stableBins, _, rfl, kept.loaded, rfl, Nat.le_of_eq free.symm⟩
      · exact kept.current
    have grows : Grows H { H with
        memory := newBin H.memory H.blocks H.length 0
        blocks := H.blocks + 1
        stableBins := H.stableBins ++ [⟨H.blocks, vkBinSize, H.length⟩]
        freeOffset := H.length + BitVec.ofNat 32 sizeofBaseBlock
        length := H.length + vkBinSize } := by
      refine ⟨kept', ?_, ?_, ?_, ⟨_, rfl⟩, ⟨[], (List.append_nil _).symm⟩⟩
      · rintro b i (new | ⟨bin, last, rfl, _⟩ | volatile)
        · exact Or.inl (Nat.le_of_succ_le new)
        · rw [List.getLast?_concat] at last
          obtain rfl := some.inj last
          exact Or.inl (Nat.le_refl _)
        · exact Or.inr (Or.inr volatile)
      · intro b i used
        apply newBin_other
        rintro rfl
        exact used (Or.inl (Nat.le_refl _))
      · intro offset cell found
        exact pointer_grow found rfl (List.append_nil _).symm
    refine ⟨grows.mark _, ?_, ?_⟩
    · rw [mark_freeOffset]
      exact free
    · rw [mark_length]
      exact length

theorem takeStable_spec (kept : BinsKept H) (fits : size.toNat ≤ 4072) (positive : size ≠ 0)
    (room : stableFull H size = false) (taken : takeStable H size = some (H', offset, cell)) :
    Allocated H H' offset cell size.toNat ∧ offset.toNat < 0x80000000 ∧
      ∃ bin ∈ H'.stableBins.tail, cell.block = bin.binBase ∧ bin.binSize = vkBinSize := by
  obtain ⟨nonzero, room⟩ := (stableFull_iff kept fits).mp room
  have size0 : size.toNat ≠ 0 := fun zero => positive (eq_of_toNat_eq zero)
  obtain ⟨p, pointer, equal⟩ := map_eq_some_iff.mp taken
  obtain ⟨rfl, rfl, rfl⟩ := equal
  obtain ⟨bins, bin, split, more, size4, header⟩ := kept.filled (by omega)
  have small := kept.room
  have chained := kept.chained
  rw [split] at chained
  obtain ⟨_, length⟩ := chained.split
  rw [size4, show vkBinSize.toNat = 0x1000 from rfl] at length
  have next : (H.freeOffset + vkAlignUp size 4).toNat =
      H.freeOffset.toNat + (size.toNat + 3) / 4 * 4 := by
    rw [toNat_add, vkAlignUp_toNat size (by omega), Nat.mod_eq_of_lt (by omega)]
  have located : cell = ⟨bin.binBase, H.freeOffset.toNat - bin.binBaseOffset.toNat⟩ := by
    have found : (bins ++ [bin]).find? (StableBin.contains · H.freeOffset) = some bin :=
      chained.find_last (by omega) (by omega) (by omega)
    rw [stable_pointer nonzero (by omega), split, found] at pointer
    have below : bin.binBaseOffset ≤ H.freeOffset := by
      rw [le_def]
      omega
    rw [← some.inj pointer, ← toNat_sub_of_le below]
  have last : H.stableBins.getLast? = some bin := by rw [split, getLast?_concat]
  have member : bin.binBase ∈ H.stableBins.map StableBin.binBase :=
    mem_map_of_mem (mem_of_getLast? last)
  have grows : Grows H { H with freeOffset := H.freeOffset + vkAlignUp size 4 } := by
    refine ⟨?_, ?_, fun _ => rfl, id, ⟨[], (append_nil _).symm⟩, ⟨[], (append_nil _).symm⟩⟩
    · refine { kept with free := ?_, filled := ?_ }
      · rw [next]
        exact room
      · intro _
        refine ⟨bins, bin, split, more, size4, ?_⟩
        rw [next]
        omega
    · rintro b i (new | ⟨other, found, rfl, beyond⟩ | volatile)
      · exact Or.inl new
      · dsimp only at beyond
        rw [next] at beyond
        exact Or.inr (Or.inl ⟨other, found, rfl, by omega⟩)
      · exact Or.inr (Or.inr volatile)
  obtain rfl := located
  refine ⟨⟨grows.mark _, ?_, nonzero, ?_, ?_, ?_, ?_⟩, by omega, bin, ?_, rfl, size4⟩
  · rw [mark_pointer]
    exact pointer
  · rintro b i ⟨rfl, low, high⟩
    dsimp only at low
    exact Or.inr (Or.inl ⟨bin, last, rfl, by omega⟩)
  · rintro b i ⟨rfl, low, high⟩ fresh
    rw [mark_fresh] at fresh
    obtain new | ⟨other, found, _, beyond⟩ | ⟨volatile, _⟩ := fresh
    · exact Nat.not_le_of_lt (kept.known (mem_append_left _ member)) new
    · obtain rfl := some.inj (last.symm.trans found)
      dsimp only at high beyond
      rw [next] at beyond
      omega
    · exact (nodup_append.mp kept.apart).2.2 _ member _ (mem_of_getLast? volatile) rfl
  · dsimp only
    omega
  · dsimp only
    omega
  · rw [mark_stableBins]
    dsimp only
    rw [split, tail_append_of_ne_nil more]
    exact mem_append_right _ mem_cons_self

/-- A stable cell is asked for that fits a bin, or there is no bin to take it from. -/
def StableFits (H : Hive) (size : BitVec 32) (growth : Growth) : Prop :=
  if stableFull H size = true ∧ hvAllocateStableCell H growth = none then
    vkpGetCellPointer H H.freeOffset = none
  else size.toNat ≤ 4072

theorem StableFits.of_grown (fits : size.toNat ≤ 4072)
    (grown : (hvAllocateStableCell H growth).isSome = true) : StableFits H size growth := by
  rw [StableFits, if_neg]
  · exact fits
  · rintro ⟨_, failed⟩
    rw [failed] at grown
    exact Bool.false_ne_true grown

theorem allocateStable_spec (kept : BinsKept H) (fits : StableFits H size growth)
    (allocated : vkpAllocateStableCell H size growth = (H', result)) :
    (result = none → H' = H) ∧ ∀ offset cell, result = some (offset, cell) →
      Allocated H H' offset cell size.toNat ∧ offset.toNat < 0x80000000 ∧
        ∃ bin ∈ H'.stableBins.tail, cell.block = bin.binBase ∧ bin.binSize = vkBinSize := by
  rw [vkpAllocateStableCell] at allocated
  split at allocated
  next =>
    obtain ⟨rfl, rfl⟩ := Prod.mk.inj allocated
    exact ⟨fun _ => rfl, nofun⟩
  next positive =>
    rw [StableFits] at fits
    split at fits
    next failed =>
      have refused : takeStable H size = none := by
        rw [takeStable, fits]
        rfl
      simp only [failed.1, failed.2, if_true, getD_none, refused] at allocated
      obtain ⟨rfl, rfl⟩ := Prod.mk.inj allocated
      exact ⟨fun _ => rfl, nofun⟩
    next unfailed =>
      obtain ⟨H₁, grows, room, next⟩ : ∃ H₁, Grows H H₁ ∧ stableFull H₁ size = false ∧
          (if stableFull H size = true then (hvAllocateStableCell H growth).getD H else H) = H₁ := by
        by_cases full : stableFull H size = true
        · obtain ⟨H₁, grown⟩ := ne_none_iff_exists'.mp fun failed => unfailed ⟨full, failed⟩
          obtain ⟨grows, free, length⟩ := stable_grows kept grown
          refine ⟨H₁, grows, ?_, by rw [if_pos full, grown, getD_some]⟩
          rw [stableFull_iff grows.kept fits, length, free]
          refine ⟨fun zero => ?_, by omega⟩
          rw [zero, show (0 : BitVec 32).toNat = 0 from rfl] at free
          omega
        · exact ⟨H, .refl kept, Bool.eq_false_of_not_eq_true full, if_neg full⟩
      rw [next] at allocated
      obtain ⟨cell, pointer⟩ : ∃ cell, vkpGetCellPointer H₁ H₁.freeOffset = some cell := by
        obtain ⟨nonzero, room⟩ := (stableFull_iff grows.kept fits).mp room
        have small := grows.kept.room
        have size0 : size.toNat ≠ 0 := fun zero => positive (eq_of_toNat_eq zero)
        obtain ⟨bin, _, first, _⟩ : ∃ bin ∈ H₁.stableBins,
            H₁.stableBins.find? (StableBin.contains · H₁.freeOffset) = some bin ∧ _ :=
          grows.kept.chained.find_inside (by omega) (Nat.zero_le _) (by omega)
        rw [stable_pointer nonzero (by omega), first]
        exact ⟨_, rfl⟩
      have taken : takeStable H₁ size = some (vkpMarkCellDirty
          { H₁ with freeOffset := H₁.freeOffset + vkAlignUp size 4 } H₁.freeOffset, H₁.freeOffset, cell) := by
        rw [takeStable, pointer]
        rfl
      simp only [taken] at allocated
      obtain ⟨rfl, rfl⟩ := Prod.mk.inj allocated
      refine ⟨nofun, fun offset given same => ?_⟩
      obtain ⟨rfl, rfl⟩ := Prod.mk.inj (some.inj same)
      obtain ⟨allocated, rest⟩ := takeStable_spec grows.kept fits positive room taken
      exact ⟨grows.allocated allocated, rest⟩

end Stable

theorem loaded_kept (loaded : vkpInitializeSystemHive image hiveLength pool pooled = some H) :
    BinsKept H := by
  simp only [vkpInitializeSystemHive] at loaded
  split at loaded
  next => cases loaded
  split at loaded
  next => cases loaded
  split at loaded
  next => cases loaded
  split at loaded
  next => cases loaded
  next range =>
    split at loaded
    next => cases loaded
    next =>
      have range : hiveLength.toNat ≤ poolRange := by
        by_contra beyond
        exact range (Or.inl (by omega))
      rw [poolRange] at range
      obtain rfl := some.inj loaded
      refine ⟨⟨rfl, Nat.zero_add _⟩, ?_, cons_ne_nil _ _, nodup_singleton _, ?_, Nat.zero_le _,
        Nat.le_refl _, ?_, fun bins => absurd rfl bins⟩
      · simp only [maxStableBins, length_singleton]
        omega
      · intro b member
        obtain rfl := mem_singleton.mp member
        exact Nat.one_pos
      · exact fun below => absurd below (Nat.lt_irrefl _)

end VeaOS.Vk
