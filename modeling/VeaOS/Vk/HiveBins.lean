import VeaOS.Foundation.PackedBits
import VeaOS.Vk.Hive

/-! Offsets and the bins they lie in. -/
namespace VeaOS.Vk
open Foundation BitVec

section Offsets
variable {offset : BitVec 32}

theorem and_volatile : offset &&& volatileKeyOffset = if offset.getLsbD 31 then volatileKeyOffset else 0 := by
  rw [show volatileKeyOffset = twoPow 32 31 from rfl, and_twoPow]
  rfl

theorem volatile_iff : vkIsVolatileOffset offset = true ↔ 0x80000000 ≤ offset.toNat := by
  have top : offset.getLsbD 31 = decide (0x80000000 ≤ offset.toNat) :=
    (msb_eq_getLsbD_last offset).symm.trans (msb_eq_decide offset)
  rw [vkIsVolatileOffset, and_volatile, top, bne_iff_ne]
  by_cases high : 0x80000000 ≤ offset.toNat
  · simp [high, volatileKeyOffset]
  · simp [high]

theorem stable_of_lt (low : offset.toNat < 0x80000000) : vkIsVolatileOffset offset = false := by
  apply Bool.eq_false_of_not_eq_true
  rw [volatile_iff]
  omega

theorem rawOffset_toNat : (vkGetRawOffset offset).toNat = offset.toNat % 0x80000000 := by
  have low : vkGetRawOffset offset = (offset.setWidth 31).setWidth 32 := by
    apply eq_of_getLsbD_eq
    intro i bound
    have mask : ∀ i : Fin 32, (~~~volatileKeyOffset).getLsbD i = decide (i.val < 31) := by decide
    rw [vkGetRawOffset, getLsbD_and, mask ⟨i, bound⟩, getLsbD_setWidth,
      getLsbD_setWidth]
    simp [bound, Bool.and_comm]
  rw [low, toNat_setWidth, toNat_setWidth]
  have bound := offset.isLt
  omega

theorem rawOffset_of_lt (low : offset.toNat < 0x80000000) : vkGetRawOffset offset = offset := by
  apply eq_of_toNat_eq
  rw [rawOffset_toNat]
  omega

theorem makeVolatile_toNat (low : offset.toNat < 0x80000000) :
    (vkMakeVolatileOffset offset).toNat = 0x80000000 + offset.toNat := by
  have raw : vkMakeVolatileOffset offset = volatileKeyOffset + offset := by
    rw [vkMakeVolatileOffset, BitVec.or_comm, BitVec.add_eq_or_of_and_eq_zero]
    rw [BitVec.and_comm, and_volatile]
    have top : offset.getLsbD 31 = decide (0x80000000 ≤ offset.toNat) :=
      (BitVec.msb_eq_getLsbD_last offset).symm.trans (BitVec.msb_eq_decide offset)
    rw [top, if_neg (by simpa using low)]
    rfl
  rw [raw, BitVec.toNat_add, show volatileKeyOffset.toNat = 0x80000000 from rfl]
  omega

theorem vkAlignUp_toNat (size : BitVec 32) (small : size.toNat < 0xFFFFFFFD) :
    (vkAlignUp size 4).toNat = (size.toNat + 3) / 4 * 4 := by
  have shifted : vkAlignUp size 4 = ((size + (4 - 1)) >>> 2) <<< 2 :=
    Packed.and_highMask _ _ (by decide)
  rw [shifted, toNat_shiftLeft, toNat_ushiftRight, toNat_add,
    Nat.shiftLeft_eq, Nat.shiftRight_eq_div_pow, show (4 - 1 : BitVec 32).toNat = 3 from rfl]
  omega

end Offsets

def Chained : Nat → List StableBin → Nat → Prop
  | start, [], stop => start = stop
  | start, bin :: rest, stop =>
    bin.binBaseOffset.toNat = start ∧ Chained (start + bin.binSize.toNat) rest stop

def StableBin.contains (bin : StableBin) (offset : BitVec 32) : Bool :=
  bin.binBaseOffset ≤ offset && offset < bin.binBaseOffset + bin.binSize

namespace Chained

theorem le (chained : Chained start bins stop) : start ≤ stop := by
  induction bins generalizing start with
  | nil => exact Nat.le_of_eq chained
  | cons bin rest ih => exact Nat.le_trans (Nat.le_add_right _ _) (ih chained.2)

theorem contains_iff {bin : StableBin} (small : bin.binBaseOffset.toNat + bin.binSize.toNat ≤ 0x80000000) :
    bin.contains offset = true ↔ bin.binBaseOffset.toNat ≤ offset.toNat ∧
      offset.toNat < bin.binBaseOffset.toNat + bin.binSize.toNat := by
  rw [StableBin.contains, Bool.and_eq_true, decide_eq_true_eq, decide_eq_true_eq, le_def,
    lt_def, toNat_add, Nat.mod_eq_of_lt (by omega)]

theorem append (chained : Chained start bins stop) (follows : bin.binBaseOffset.toNat = stop) :
    Chained start (bins ++ [bin]) (stop + bin.binSize.toNat) := by
  induction bins generalizing start with
  | nil =>
    obtain rfl := chained
    exact ⟨follows, rfl⟩
  | cons first rest ih => exact ⟨chained.1, ih chained.2⟩

theorem split (chained : Chained start (bins ++ [bin]) stop) :
    Chained start bins bin.binBaseOffset.toNat ∧ stop = bin.binBaseOffset.toNat + bin.binSize.toNat := by
  induction bins generalizing start with
  | nil =>
    obtain ⟨rfl, rfl⟩ := chained
    exact ⟨rfl, rfl⟩
  | cons first rest ih =>
    obtain ⟨earlier, ends⟩ := ih chained.2
    exact ⟨⟨chained.1, earlier⟩, ends⟩

theorem find_beyond (chained : Chained start bins stop) (small : stop ≤ 0x80000000)
    (beyond : stop ≤ offset.toNat) : bins.find? (StableBin.contains · offset) = none := by
  induction bins generalizing start with
  | nil => rfl
  | cons bin rest ih =>
    obtain ⟨follows, later⟩ := chained
    have bound := later.le
    rw [List.find?_cons_of_neg]
    · exact ih later
    · rw [contains_iff (by omega)]
      omega

theorem find_inside (chained : Chained start bins stop) (small : stop ≤ 0x80000000)
    (low : start ≤ offset.toNat) (high : offset.toNat < stop) :
    ∃ bin ∈ bins, bins.find? (StableBin.contains · offset) = some bin ∧
      bin.binBaseOffset.toNat ≤ offset.toNat ∧
      offset.toNat < bin.binBaseOffset.toNat + bin.binSize.toNat := by
  induction bins generalizing start with
  | nil =>
    obtain rfl := chained
    omega
  | cons bin rest ih =>
    obtain ⟨follows, later⟩ := chained
    have bound := later.le
    by_cases here : offset.toNat < bin.binBaseOffset.toNat + bin.binSize.toNat
    · refine ⟨bin, List.mem_cons_self, List.find?_cons_of_pos ?_, by omega, here⟩
      exact (contains_iff (by omega)).mpr ⟨by omega, here⟩
    · obtain ⟨found, member, first, range⟩ := ih later (by omega)
      refine ⟨found, List.mem_cons_of_mem _ member, ?_, range⟩
      rw [List.find?_cons_of_neg]
      · exact first
      · rw [contains_iff (by omega)]
        omega

theorem find_last (chained : Chained start (bins ++ [bin]) stop) (small : stop ≤ 0x80000000)
    (low : bin.binBaseOffset.toNat ≤ offset.toNat) (high : offset.toNat < stop) :
    (bins ++ [bin]).find? (StableBin.contains · offset) = some bin := by
  obtain ⟨earlier, rfl⟩ := chained.split
  rw [List.find?_append, earlier.find_beyond (by omega) low, Option.none_or]
  exact List.find?_cons_of_pos ((contains_iff small).mpr ⟨low, high⟩)

end Chained

section Pointers
variable {H : Hive} {offset : BitVec 32}

theorem stable_pointer (nonzero : offset ≠ 0) (low : offset.toNat < 0x80000000) :
    vkpGetCellPointer H offset = (H.stableBins.find? (StableBin.contains · offset)).map
      fun bin => ⟨bin.binBase, (offset - bin.binBaseOffset).toNat⟩ := by
  rw [vkpGetCellPointer, if_neg nonzero]
  simp only [stable_of_lt low, rawOffset_of_lt low]
  rfl

theorem volatile_pointer {raw : BitVec 32} {bin : Nat} (bound : raw.toNat < 0x80000000)
    (found : H.volatileBins[raw.toNat / 0x1000]? = some bin) :
    vkpGetCellPointer H (vkMakeVolatileOffset raw) = some ⟨bin, raw.toNat % 0x1000⟩ := by
  have offset := makeVolatile_toNat bound
  have nonzero : vkMakeVolatileOffset raw ≠ 0 := by
    intro zero
    rw [zero] at offset
    exact absurd offset (by rw [show (0 : BitVec 32).toNat = 0 from rfl]; omega)
  have back : vkGetRawOffset (vkMakeVolatileOffset raw) = raw := by
    apply eq_of_toNat_eq
    rw [rawOffset_toNat, offset]
    omega
  have isVolatile : vkIsVolatileOffset (vkMakeVolatileOffset raw) = true := by
    rw [volatile_iff, offset]
    omega
  have quotient : (raw / vkBinSize).toNat = raw.toNat / 0x1000 := toNat_udiv
  have remainder : (raw &&& 0xFFF).toNat = raw.toNat % 0x1000 := by
    rw [toNat_and]
    exact Nat.and_two_pow_sub_one_eq_mod _ 12
  rw [vkpGetCellPointer, if_neg nonzero]
  simp only [back, isVolatile, if_true, quotient, remainder, found]
  rfl

theorem pointer_grow (found : vkpGetCellPointer H offset = some cell)
    (stable : H'.stableBins = H.stableBins ++ more) (volatile : H'.volatileBins = H.volatileBins ++ bins) :
    vkpGetCellPointer H' offset = some cell := by
  rw [vkpGetCellPointer] at found ⊢
  split
  next zero => simp [zero] at found
  next nonzero =>
    rw [if_neg nonzero] at found
    dsimp only at found ⊢
    split
    next isVolatile =>
      rw [if_pos isVolatile] at found
      obtain ⟨bin, at_, rfl⟩ := Option.map_eq_some_iff.mp found
      obtain ⟨inside, _⟩ := List.getElem?_eq_some_iff.mp at_
      rw [volatile, List.getElem?_append_left inside, at_]
      rfl
    next isStable =>
      rw [if_neg isStable] at found
      obtain ⟨bin, first, rfl⟩ := Option.map_eq_some_iff.mp found
      rw [stable, List.find?_append, first]
      rfl

end Pointers
end VeaOS.Vk
