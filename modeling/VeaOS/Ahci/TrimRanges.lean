import VeaOS.Ahci.TrimCommands
import Mathlib.Algebra.Order.Floor.Div

/-! When the commands name exactly the whole sectors of the ranges. A range is
compared with its entry first, then the batches are put together. -/
namespace VeaOS.Ahci
open Rtl

section Units
variable {s : Nat} (positive : 0 < s)
include positive

theorem le_units_iff (p n : Nat) : p ≤ n * s ↔ p / s < n ∨ p / s = n ∧ p % s = 0 := by
  have parts := Nat.div_add_mod p s
  have rest := Nat.mod_lt p positive
  obtain less | rfl | more := Nat.lt_trichotomy (p / s) n
  · have : s * (p / s + 1) ≤ s * n := Nat.mul_le_mul_left s less
    rw [Nat.mul_succ, Nat.mul_comm s n] at this
    exact ⟨fun _ => Or.inl less, fun _ => by omega⟩
  · rw [Nat.mul_comm (p / s) s]
    omega
  · have : s * (n + 1) ≤ s * (p / s) := Nat.mul_le_mul_left s more
    rw [Nat.mul_succ, Nat.mul_comm s n] at this
    omega

theorem units_le_iff (p l n : Nat) :
    n * s ≤ p + l ↔ n ≤ p / s + l / s ∨ n = p / s + l / s + 1 ∧ s ≤ p % s + l % s := by
  rw [← Nat.le_div_iff_mul_le positive, Nat.add_div positive]
  split <;> omega

theorem units_add_le_iff (p l n : Nat) :
    n * s + p ≤ l ↔ n + p / s < l / s ∨ n + p / s = l / s ∧ p % s ≤ l % s := by
  have parts := Nat.div_add_mod p s
  have parts' := Nat.div_add_mod l s
  have rest := Nat.mod_lt p positive
  have rest' := Nat.mod_lt l positive
  have sum : s * (n + p / s) = n * s + s * (p / s) := by rw [Nat.mul_add, Nat.mul_comm s n]
  obtain less | same | more := Nat.lt_trichotomy (n + p / s) (l / s)
  · have : s * (n + p / s + 1) ≤ s * (l / s) := Nat.mul_le_mul_left s less
    rw [Nat.mul_succ] at this
    exact ⟨fun _ => Or.inl less, fun _ => by omega⟩
  · rw [same] at sum
    omega
  · have : s * (l / s + 1) ≤ s * (n + p / s) := Nat.mul_le_mul_left s more
    rw [Nat.mul_succ] at this
    omega

theorem fields_from_zero_iff (p l : Nat) :
    (∀ n, (p / s % 2 ^ 48 ≤ n ∧ n < p / s % 2 ^ 48 + l / s % 2 ^ 16) ↔
        (p ≤ n * s ∧ (n + 1) * s ≤ p + l)) ↔
      (l < s ∨ s ∣ p ∧ p / s < 2 ^ 48 ∧ l / s < 2 ^ 16) := by
  have rest := Nat.mod_lt p positive
  have rest' := Nat.mod_lt l positive
  simp only [le_units_iff positive, units_le_iff positive]
  rw [← Nat.div_eq_zero_iff_lt positive, Nat.dvd_iff_mod_eq_zero]
  generalize p / s = k, l / s = m, p % s = behind, l % s = left at *
  constructor
  · intro same
    have first := same (k % 2 ^ 48)
    have start := same k
    have second := same (k + 1)
    have last := same (k + m - 1)
    omega
  · intro fit n
    omega

theorem fields_below_zero_iff (p l : Nat) :
    (∀ n, ((2 ^ 48 - p / s % 2 ^ 48) % 2 ^ 48 ≤ n ∧
          n < (2 ^ 48 - p / s % 2 ^ 48) % 2 ^ 48 + l / s % 2 ^ 16) ↔ (n + 1) * s + p ≤ l) ↔
      (l < s + p ∧ l / s % 2 ^ 16 = 0 ∨
        2 ^ 48 ∣ p / s ∧ p % s ≤ l % s ∧ p / s ≤ l / s ∧ l / s < p / s + 2 ^ 16) := by
  have short : l < s + p ↔ ¬ (1 * s + p ≤ l) := by omega
  simp only [short, units_add_le_iff positive]
  generalize p / s = k, l / s = m, p % s = behind, l % s = left
  constructor
  · intro same
    have zero := same 0
    have first := same ((2 ^ 48 - k % 2 ^ 48) % 2 ^ 48)
    have next := same (m % 2 ^ 16)
    have last := same (m % 2 ^ 16 - 1)
    omega
  · intro fit n
    omega

end Units

section Entries
variable {sectorSize : BitVec 32} {range : DeviceDataSetRange}

theorem trimEntry_eq (sectorSize : BitVec 32) (range : DeviceDataSetRange) : trimEntry sectorSize range =
    ⟨BitVec.ofInt 48 (range.start.tdiv sectorSize.toNat),
      BitVec.ofNat 16 (range.lengthInBytes.toNat / sectorSize.toNat)⟩ := by
  have short := sectorSize.isLt
  have size : (sectorSize.setWidth 64).toNat = sectorSize.toNat := by
    rw [BitVec.toNat_setWidth]
    omega
  have sizeInt : (sectorSize.setWidth 64).toInt = sectorSize.toNat := by
    rw [BitVec.toInt_eq_toNat_of_lt (by omega), size]
  rw [trimEntry, divideSigned_quotient, divideUnsigned_quotient, sizeInt, DeviceDataSetRange.start]
  refine congrArg₂ AtaTrimRangeEntry.mk (BitVec.eq_of_toNat_eq ?_) (BitVec.eq_of_toNat_eq ?_)
  · rw [BitVec.toNat_setWidth, BitVec.toNat_ofInt, BitVec.toNat_ofInt]
    omega
  · rw [BitVec.toNat_setWidth, BitVec.toNat_udiv, size, BitVec.toNat_ofNat]

theorem trimEntry_names_iff (n : Nat) : (trimEntry sectorSize range).names n ↔
    (range.start.tdiv sectorSize.toNat % 2 ^ 48).toNat ≤ n ∧
      n < (range.start.tdiv sectorSize.toNat % 2 ^ 48).toNat +
        range.lengthInBytes.toNat / sectorSize.toNat % 2 ^ 16 := by
  rw [AtaTrimRangeEntry.names, trimEntry_eq, BitVec.toNat_ofInt, BitVec.toNat_ofNat]
  rfl

theorem fieldsFit_iff :
    (∀ n, (trimEntry sectorSize range).names n ↔ range.holds sectorSize n) ↔ FieldsFit sectorSize range := by
  simp only [trimEntry_names_iff, DeviceDataSetRange.holds, FieldsFit]
  generalize range.start = start, range.lengthInBytes.toNat = l, sectorSize.toNat = s
  obtain rfl | positive := Nat.eq_zero_or_pos s
  · rw [if_pos rfl]
    simp only [Nat.cast_zero, Int.mul_zero, Nat.div_zero, Nat.zero_mod, Int.tdiv_zero]
    exact ⟨fun same => by
      have := same 0
      omega, fun apart n => by omega⟩
  rw [if_neg (Nat.pos_iff_ne_zero.mp positive)]
  obtain behind | before := le_or_gt 0 start
  · obtain ⟨p, rfl⟩ := Int.eq_ofNat_of_zero_le behind
    have first : ((p : Int).tdiv s % 2 ^ 48).toNat = p / s % 2 ^ 48 := by
      rw [← Int.ofNat_tdiv]
      omega
    have sectors (n : Nat) : ((p : Int) ≤ n * s ∧ ((n : Int) + 1) * s ≤ p + l) ↔
        (p ≤ n * s ∧ (n + 1) * s ≤ p + l) :=
      ⟨fun whole => ⟨by exact_mod_cast whole.1, by exact_mod_cast whole.2⟩,
        fun whole => ⟨by exact_mod_cast whole.1, by exact_mod_cast whole.2⟩⟩
    simp only [first, Int.natAbs_natCast, sectors, ← fields_from_zero_iff positive p l]
    exact ⟨fun same => Or.inl ⟨behind, same⟩,
      fun fit => (fit.resolve_right fun below => absurd below.1 (Int.not_lt.mpr behind)).2⟩
  · obtain ⟨p, rfl⟩ : ∃ p : Nat, start = -p := ⟨start.natAbs, by omega⟩
    have first : ((-(p : Int)).tdiv s % 2 ^ 48).toNat = (2 ^ 48 - p / s % 2 ^ 48) % 2 ^ 48 := by
      rw [Int.neg_tdiv, ← Int.ofNat_tdiv]
      omega
    have sectors (n : Nat) : (-(p : Int) ≤ n * s ∧ ((n : Int) + 1) * s ≤ -p + l) ↔ (n + 1) * s + p ≤ l := by
      have reach : (((n + 1) * s : Nat) : Int) = ((n : Int) + 1) * s := by push_cast; rfl
      have nonneg : (0 : Int) ≤ n * s := by exact_mod_cast Nat.zero_le (n * s)
      rw [← reach]
      omega
    simp only [first, Int.natAbs_neg, Int.natAbs_natCast, sectors, ← fields_below_zero_iff positive p l]
    exact ⟨fun same => Or.inr ⟨before, same⟩,
      fun fit => (fit.resolve_left fun above => absurd before (Int.not_lt.mpr above.1)).2⟩

end Entries

section Batches
variable {sectorSize : BitVec 32}

theorem mem_trimBatches_iff (ranges : List DeviceDataSetRange) (range : DeviceDataSetRange) :
    (∃ batch ∈ trimBatches ranges, range ∈ batch) ↔ range ∈ ranges := by
  rw [trimBatches]
  constructor
  · rintro ⟨batch, member, among⟩
    obtain ⟨k, _, rfl⟩ := List.mem_map.mp member
    exact List.mem_of_mem_drop (List.mem_of_mem_take among)
  · intro member
    obtain ⟨i, inside, rfl⟩ := List.mem_iff_getElem.mp member
    have parts := Nat.div_add_mod i 64
    refine ⟨(ranges.drop (i / 64 * 64)).take 64, List.mem_map.mpr ⟨i / 64, ?_, rfl⟩, ?_⟩
    · rw [List.mem_range, trimBatchSize]
      omega
    · refine List.mem_iff_getElem.mpr ⟨i % 64, ?_, ?_⟩
      · rw [List.length_take, List.length_drop]
        omega
      · rw [List.getElem_take, List.getElem_drop]
        congr 1
        omega

theorem trimPayload_names_iff (batch : List DeviceDataSetRange) (n : Nat) :
    (∃ entry ∈ trimPayload sectorSize batch, entry.names n) ↔
      ∃ range ∈ batch, (trimEntry sectorSize range).names n := by
  constructor
  · rintro ⟨entry, member, named⟩
    obtain inBatch | padding := List.mem_append.mp member
    · obtain ⟨range, among, rfl⟩ := List.mem_map.mp inBatch
      exact ⟨range, among, named⟩
    · rw [List.eq_of_mem_replicate padding] at named
      exact absurd named.2 (Nat.not_lt_of_le named.1)
  · rintro ⟨range, among, named⟩
    exact ⟨_, List.mem_append_left _ (List.mem_map_of_mem among), named⟩

theorem trimLoop_commands (world : TrimWorld) (k : Nat) (batches : List (List DeviceDataSetRange)) :
    (∀ payload ∈ (trimLoop world sectorSize k batches).commands, ∃ batch ∈ batches,
        payload = trimPayload sectorSize batch) ∧
      ((trimLoop world sectorSize k batches).status = .success →
        (trimLoop world sectorSize k batches).commands = batches.map (trimPayload sectorSize)) := by
  induction batches generalizing k with
  | nil => exact ⟨fun _ member => (by cases member), fun _ => rfl⟩
  | cons batch rest ih =>
    rw [trimLoop]
    split
    next => exact ⟨fun _ member => (by cases member), fun same => by cases same⟩
    next =>
      split
      next => exact ⟨fun _ member => (by cases member), fun same => by cases same⟩
      next =>
        split
        next =>
          refine ⟨fun payload member => ?_, fun same => by cases same⟩
          exact ⟨batch, List.mem_cons_self, List.mem_singleton.mp member⟩
        next =>
          obtain ⟨payloads, all⟩ := ih (k + 1)
          refine ⟨fun payload member => ?_, fun success => ?_⟩
          · obtain rfl | later := List.mem_cons.mp member
            · exact ⟨batch, List.mem_cons_self, rfl⟩
            · obtain ⟨other, among, same⟩ := payloads payload later
              exact ⟨other, List.mem_cons_of_mem _ among, same⟩
          · exact congrArg (trimPayload sectorSize batch :: ·) (all success)

/-- A world in which nothing is short and no command fails. -/
def plentyWorld : TrimWorld := ⟨fun _ => true, fun _ => true, fun _ => none⟩

theorem trimLoop_plenty (k : Nat) (batches : List (List DeviceDataSetRange)) :
    trimLoop plentyWorld sectorSize k batches = ⟨.success, batches.map (trimPayload sectorSize)⟩ := by
  induction batches generalizing k with
  | nil => rfl
  | cons batch rest ih =>
    rw [trimLoop, ih]
    rfl

end Batches

section Requests
variable {sectorSize : BitVec 32} {ranges : List DeviceDataSetRange}

/-- The sectors that a range has to do with: its own whole ones, and those that its entry names. -/
def DeviceDataSetRange.touches (range : DeviceDataSetRange) (sectorSize : BitVec 32) (n : Nat) : Prop :=
  (trimEntry sectorSize range).names n ∨ range.holds sectorSize n

/-- No two ranges of the request have to do with one sector. -/
def Apart (sectorSize : BitVec 32) (ranges : List DeviceDataSetRange) : Prop :=
  ranges.Pairwise fun range other => ∀ n, ¬ (range.touches sectorSize n ∧ other.touches sectorSize n)

theorem Apart.same (apart : Apart sectorSize ranges) (member : range ∈ ranges) (other : range' ∈ ranges)
    (here : range.touches sectorSize n) (there : range'.touches sectorSize n) : range = range' := by
  by_contra differ
  have disjoint : Std.Symm fun range other : DeviceDataSetRange =>
      ∀ n, ¬ (range.touches sectorSize n ∧ other.touches sectorSize n) :=
    ⟨fun _ _ separate n both => separate n both.symm⟩
  exact List.Pairwise.forall apart member other differ n ⟨here, there⟩

theorem trim_right_of_fit (fit : ∀ range ∈ ranges, FieldsFit sectorSize range) (world : TrimWorld) :
    TrimRight sectorSize ranges (ahciSendTrimCommand world sectorSize ranges) := by
  rw [ahciSendTrimCommand]
  split
  next => exact ⟨fun _ member => (by cases member), fun same => by cases same⟩
  next =>
    obtain ⟨payloads, all⟩ := trimLoop_commands world 0 (trimBatches ranges)
    constructor
    · intro payload member entry inPayload n named
      obtain ⟨batch, among, rfl⟩ := payloads payload member
      obtain ⟨range, inBatch, named⟩ := (trimPayload_names_iff batch n).mp ⟨entry, inPayload, named⟩
      have given := (mem_trimBatches_iff ranges range).mp ⟨batch, among, inBatch⟩
      exact ⟨range, given, (fieldsFit_iff.mpr (fit range given) n).mp named⟩
    · intro success range given n whole
      have named := (fieldsFit_iff.mpr (fit range given) n).mpr whole
      obtain ⟨batch, among, inBatch⟩ := (mem_trimBatches_iff ranges range).mpr given
      obtain ⟨entry, inPayload, named⟩ := (trimPayload_names_iff batch n).mpr ⟨range, inBatch, named⟩
      exact ⟨_, all success ▸ List.mem_map_of_mem among, entry, inPayload, named⟩

theorem fit_of_trim_right (apart : Apart sectorSize ranges)
    (right : TrimRight sectorSize ranges (ahciSendTrimCommand plentyWorld sectorSize ranges)) :
    ∀ range ∈ ranges, FieldsFit sectorSize range := by
  intro range member
  rw [ahciSendTrimCommand, if_neg (List.ne_nil_of_mem member), trimLoop_plenty] at right
  obtain ⟨inside, complete⟩ := right
  refine fieldsFit_iff.mp fun n => ⟨fun named => ?_, fun whole => ?_⟩
  · obtain ⟨batch, among, inBatch⟩ := (mem_trimBatches_iff ranges range).mpr member
    obtain ⟨entry, inPayload, named'⟩ := (trimPayload_names_iff batch n).mpr ⟨range, inBatch, named⟩
    obtain ⟨other, given', whole⟩ := inside _ (List.mem_map_of_mem among) entry inPayload n named'
    exact apart.same member given' (Or.inl named) (Or.inr whole) ▸ whole
  · obtain ⟨payload, issued, entry, inPayload, named⟩ := complete rfl range member n whole
    obtain ⟨batch, among, rfl⟩ := List.mem_map.mp issued
    obtain ⟨other, inBatch, named'⟩ := (trimPayload_names_iff batch n).mp ⟨entry, inPayload, named⟩
    have given' := (mem_trimBatches_iff ranges other).mp ⟨batch, among, inBatch⟩
    exact (apart.same member given' (Or.inr whole) (Or.inl named')).symm ▸ named'

/-- A request goes right, whatever its commands meet, when the fields fit its ranges; and where
no two ranges have to do with one sector, only then. -/
theorem trim_right_iff (sectorSize : BitVec 32) (ranges : List DeviceDataSetRange) :
    ((∀ range ∈ ranges, FieldsFit sectorSize range) →
        ∀ world, TrimRight sectorSize ranges (ahciSendTrimCommand world sectorSize ranges)) ∧
      (Apart sectorSize ranges →
        (∀ world, TrimRight sectorSize ranges (ahciSendTrimCommand world sectorSize ranges)) →
        ∀ range ∈ ranges, FieldsFit sectorSize range) :=
  ⟨fun fit world => trim_right_of_fit fit world,
    fun apart right => fit_of_trim_right apart (right plentyWorld)⟩

/-- A range of two sectors that begins 100 bytes into one names that sector as well. -/
theorem trim_not_right :
    ¬ TrimRight 512 [⟨100, 1024⟩] (ahciSendTrimCommand plentyWorld 512 [⟨100, 1024⟩]) := by
  rintro ⟨inside, _⟩
  obtain ⟨range, member, whole⟩ := inside _ List.mem_cons_self ⟨0, 2⟩ (by decide) 0 ⟨by decide, by decide⟩
  rw [List.mem_singleton.mp member] at whole
  exact absurd whole.1 (by decide)

end Requests

end VeaOS.Ahci
