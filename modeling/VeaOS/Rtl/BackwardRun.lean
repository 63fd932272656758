import VeaOS.Rtl.BitmapRuns

/-! The search for the last run of clear bits at or before an index. Its start is right, and its
length is one too small. -/
namespace VeaOS.Rtl

open List

section Scan
variable {read : Nat → BitVec 32} {top w : Nat} {value : BitVec 32}

theorem bitScanReverse_spec (nonzero : value ≠ 0) : bitScanReverse value < 32 ∧
    value.getLsbD (bitScanReverse value) = true ∧
      ∀ j < 32, bitScanReverse value < j → value.getLsbD j = false := by
  cases found : (range 32).reverse.find? fun i => value.getLsbD i with
  | none =>
    refine absurd (BitVec.eq_of_getLsbD_eq fun j below => ?_) nonzero
    have unset := find?_eq_none.mp found j (mem_reverse.mpr (mem_range.mpr below))
    rw [show (0 : BitVec 32).getLsbD j = false from BitVec.getLsbD_zero]
    simpa using unset
  | some k =>
    have isSet := find?_some found
    have member := mem_range.mp (mem_reverse.mp (mem_of_find?_eq_some found))
    rw [bitScanReverse, found]
    refine ⟨member, isSet, fun j below above => ?_⟩
    obtain ⟨_, i, bound, same, earlier⟩ := find?_eq_some_iff_getElem.mp found
    simp only [length_reverse, length_range] at bound
    simp only [getElem_reverse, getElem_range, length_range] at same earlier
    change k < j at above
    have unset := earlier (31 - j) (by omega)
    simpa [show 32 - 1 - (31 - j) = j by omega] using unset

/-- The words from `w` on were read; the value are the bits of that word up to the top. -/
structure ScannedBack (read : Nat → BitVec 32) (top w : Nat) (value : BitVec 32) : Prop where
  bits : ∀ j < 32, value.getLsbD j = (decide (w * 32 + j ≤ top) && !zeroBit read (w * 32 + j))
  zeros : ∀ i, (w + 1) * 32 ≤ i → i ≤ top → zeroBit read i = true

theorem lowBits_bit (value : BitVec 32) (few : n ≤ 31) (below : j < 32) :
    (value <<< (31 - n) >>> (31 - n)).getLsbD j = (decide (j ≤ n) && value.getLsbD j) := by
  rw [BitVec.getLsbD_ushiftRight, BitVec.getLsbD_shiftLeft]
  by_cases inside : j ≤ n
  · simp [inside, show 31 - n + j < 32 by omega, show 31 - n + j - (31 - n) = j by omega]
  · simp [inside, show ¬ 31 - n + j < 32 by omega]

theorem scannedBack_first (read : Nat → BitVec 32) (top : Nat) :
    ScannedBack read top (top / 32) (read (top / 32) <<< (31 - top % 32) >>> (31 - top % 32)) where
  bits j below := by
    rw [lowBits_bit _ (by omega) below, zeroBit_word below, Bool.not_not]
    congr 1
    exact decide_eq_decide.mpr (by omega)
  zeros i later inside := by omega

theorem ScannedBack.zeros_all (scanned : ScannedBack read top w 0) (later : w * 32 ≤ i) (inside : i ≤ top) :
    zeroBit read i = true := by
  by_cases behind : (w + 1) * 32 ≤ i
  · exact scanned.zeros i behind inside
  · have first := scanned.bits (i - w * 32) (by omega)
    rw [show (0 : BitVec 32).getLsbD _ = false from BitVec.getLsbD_zero,
      show w * 32 + (i - w * 32) = i by omega] at first
    simpa [inside] using first.symm

theorem ScannedBack.next (scanned : ScannedBack read top (w + 1) 0) (inside : (w + 1) * 32 ≤ top) :
    ScannedBack read top w (read w) where
  bits j below := by
    rw [zeroBit_word below, Bool.not_not]
    simp [show w * 32 + j ≤ top by omega]
  zeros i later within := scanned.zeros_all later within

theorem skipZeroBack_spec (scanned : ScannedBack read top w value) (inside : w * 32 ≤ top) :
    ∃ w' value', skipZeroBack read w value = (w', value') ∧ ScannedBack read top w' value' ∧ w' * 32 ≤ top ∧
      (value' = 0 → w' = 0) := by
  induction w generalizing value with
  | zero => exact ⟨0, value, rfl, scanned, inside, fun _ => rfl⟩
  | succ w ih =>
    rw [skipZeroBack]
    by_cases zero : value = 0
    · subst zero
      rw [if_pos rfl]
      exact ih (scanned.next inside) (by omega)
    · exact ⟨w + 1, value, by rw [if_neg zero], scanned, inside, fun zero' => absurd zero' zero⟩

theorem scanBack_spec (read : Nat → BitVec 32) (top : Nat) : ∃ w value,
    skipZeroBack read (top / 32) (read (top / 32) <<< (31 - top % 32) >>> (31 - top % 32)) = (w, value) ∧
      (value = 0 → ∀ i ≤ top, zeroBit read i = true) ∧
      (value ≠ 0 → w * 32 + bitScanReverse value ≤ top ∧ zeroBit read (w * 32 + bitScanReverse value) = false ∧
        (∀ i ≤ top, w * 32 + bitScanReverse value < i → zeroBit read i = true) ∧
        ∀ j ≤ bitScanReverse value, value.getLsbD j = (read w).getLsbD j) := by
  obtain ⟨w, value, skipped, scanned, inside, ended⟩ := skipZeroBack_spec (scannedBack_first read top) (by omega)
  refine ⟨w, value, skipped, fun zero i within => ?_, fun nonzero => ?_⟩
  · subst zero
    obtain rfl := ended rfl
    exact scanned.zeros_all (by omega) within
  · obtain ⟨below, isSet, unset⟩ := bitScanReverse_spec nonzero
    rw [scanned.bits _ below, Bool.and_eq_true, decide_eq_true_eq] at isSet
    refine ⟨isSet.1, by simpa using isSet.2, fun i within later => ?_, fun j lower => ?_⟩
    · by_cases behind : (w + 1) * 32 ≤ i
      · exact scanned.zeros i behind within
      · have zero := unset (i - w * 32) (by omega) (by omega)
        rw [scanned.bits _ (by omega), show w * 32 + (i - w * 32) = i by omega] at zero
        simpa [within] using zero
    · rw [scanned.bits j (by omega), zeroBit_word (by omega), Bool.not_not]
      simp [show w * 32 + j ≤ top by omega]

end Scan

section Claim
variable {bitMap : RtlBitmap} {index a n : Nat}

/-- The last run of a predicate that is at or before an index. -/
structure LastRun (bit : Nat → Bool) (index a n : Nat) : Prop where
  positive : 0 < n
  inside : a + n ≤ index + 1
  holds : ∀ i, a ≤ i → i < a + n → bit i = true
  starts : a = 0 ∨ bit (a - 1) = false
  last : ∀ i ≤ index, a + n ≤ i → bit i = false

/-- The exact run is returned, and the length zero if and only if there is none. -/
structure FindsLastRun (bit : Nat → Bool) (index : Nat) (result : Nat × Option Nat) : Prop where
  found : ∀ a n, LastRun bit index a n → result = (n, some a)
  none_ : result.1 = 0 ↔ ∀ a n, ¬ LastRun bit index a n

theorem zeroBit_clear (bitMap : RtlBitmap) (i : Nat) :
    zeroBit (fun i => ~~~bitMap.buffer i) i = !clearAt bitMap i := by
  rw [zeroBit_complement, clearAt, zeroBit, Bool.not_not]

theorem firstIndex_eq (inside : index < bitMap.sizeOfBitMap) :
    min index (wrap (bitMap.sizeOfBitMap + 0xFFFFFFFF)) = index := by
  have small := bitMap.small
  rw [wrap, show bitMap.sizeOfBitMap + 0xFFFFFFFF = bitMap.sizeOfBitMap - 1 + 0x100000000 by omega,
    Nat.add_mod_right, Nat.mod_eq_of_lt (by omega)]
  omega

theorem backwardRun_none (inside : index < bitMap.sizeOfBitMap) (set : ∀ i ≤ index, clearAt bitMap i = false) :
    rtlFindLastBackwardRunClear bitMap index = (0, none) := by
  obtain ⟨w, value, scanned, -, found⟩ := scanBack_spec (fun i => ~~~bitMap.buffer i) index
  have zero : value = 0 := by
    by_contra nonzero
    obtain ⟨within, bit, -, -⟩ := found nonzero
    rw [zeroBit_clear, set _ within] at bit
    cases bit
  simp only [rtlFindLastBackwardRunClear, firstIndex_eq inside, scanned, zero, if_true]

theorem lowBits_not {value word : BitVec 32} (few : n ≤ 31)
    (same : ∀ j ≤ n, value.getLsbD j = (~~~word).getLsbD j) :
    ~~~value <<< (31 - n) >>> (31 - n) = word <<< (31 - n) >>> (31 - n) := by
  refine BitVec.eq_of_getLsbD_eq fun j below => ?_
  rw [lowBits_bit _ few below, lowBits_bit _ few below]
  by_cases lower : j ≤ n
  · rw [BitVec.getLsbD_not, same j lower, BitVec.getLsbD_not]
    simp [below]
  · simp [lower]

theorem backwardRun_some (inside : index < bitMap.sizeOfBitMap) (clear : ∃ i ≤ index, clearAt bitMap i = true) :
    ∃ a n, LastRun (clearAt bitMap) index a n ∧ rtlFindLastBackwardRunClear bitMap index = (n - 1, some a) := by
  have small := bitMap.small
  obtain ⟨w, value, scanned, empty, found⟩ := scanBack_spec (fun i => ~~~bitMap.buffer i) index
  have nonzero : value ≠ 0 := by
    intro zero
    obtain ⟨i, within, isClear⟩ := clear
    have unset := empty zero i within
    rw [zeroBit_clear, isClear] at unset
    cases unset
  obtain ⟨within, bit, above, same⟩ := found nonzero
  have below := (bitScanReverse_spec nonzero).1
  have isClear : clearAt bitMap (w * 32 + bitScanReverse value) = true := by
    rw [zeroBit_clear] at bit
    simpa using bit
  have last : ∀ i ≤ index, w * 32 + bitScanReverse value < i → clearAt bitMap i = false := by
    intro i inside later
    have unset := above i inside later
    rw [zeroBit_clear] at unset
    simpa using unset
  obtain ⟨w', value', scanned', empty', found'⟩ := scanBack_spec bitMap.buffer (w * 32 + bitScanReverse value)
  have shifted := lowBits_not (Nat.le_of_lt_succ below) same
  rw [show (w * 32 + bitScanReverse value) / 32 = w by omega,
    show (w * 32 + bitScanReverse value) % 32 = bitScanReverse value by omega, ← shifted] at scanned'
  have whole : wrap (w * 32 + bitScanReverse value) = w * 32 + bitScanReverse value :=
    Nat.mod_eq_of_lt (by omega)
  have length : ∀ start, start ≤ w * 32 + bitScanReverse value →
      wrap (w * 32 + bitScanReverse value + 0x100000000 - start) = w * 32 + bitScanReverse value - start := by
    intro start before
    rw [wrap, show w * 32 + bitScanReverse value + 0x100000000 - start =
      w * 32 + bitScanReverse value - start + 0x100000000 by omega, Nat.add_mod_right]
    exact Nat.mod_eq_of_lt (by omega)
  by_cases zero : value' = 0
  · refine ⟨0, w * 32 + bitScanReverse value + 1, ⟨Nat.succ_pos _, by omega, fun i _ before => ?_, .inl rfl,
      fun i inside later => last i inside (by omega)⟩, ?_⟩
    · exact empty' zero i (by omega)
    · simp only [rtlFindLastBackwardRunClear, firstIndex_eq inside, scanned, if_neg nonzero, scanned', whole, zero,
        ne_eq, not_true, if_false, length 0 (Nat.zero_le _)]
      rfl
  · obtain ⟨within', bit', above', -⟩ := found' zero
    have apart : w' * 32 + bitScanReverse value' ≠ w * 32 + bitScanReverse value := by
      intro same
      rw [same] at bit'
      rw [clearAt, bit'] at isClear
      cases isClear
    refine ⟨w' * 32 + bitScanReverse value' + 1, w * 32 + bitScanReverse value - (w' * 32 + bitScanReverse value'),
      ⟨by omega, by omega, fun i later before => above' i (by omega) (by omega), .inr bit',
        fun i inside later => last i inside (by omega)⟩, ?_⟩
    have start : wrap (w' * 32 + bitScanReverse value' + 1) = w' * 32 + bitScanReverse value' + 1 :=
      Nat.mod_eq_of_lt (by omega)
    have left : w * 32 + bitScanReverse value - (w' * 32 + bitScanReverse value') - 1 =
        w * 32 + bitScanReverse value - (w' * 32 + bitScanReverse value' + 1) := by omega
    simp only [rtlFindLastBackwardRunClear, firstIndex_eq inside, scanned, if_neg nonzero, scanned', whole, start,
      ne_eq, zero, not_false_eq_true, if_true, left, length _ (show w' * 32 + bitScanReverse value' + 1 ≤ _ by omega)]

theorem LastRun.no_run {bit : Nat → Bool} (set : ∀ i ≤ index, bit i = false) : ¬ LastRun bit index a n := by
  intro run
  have first := run.holds a (Nat.le_refl _) (Nat.lt_add_of_pos_right run.positive)
  have inside := run.inside
  have positive := run.positive
  rw [set a (by omega)] at first
  cases first

/-- The search is right only where there is no run to find: else it returns one less than the length. -/
theorem backward_run_iff (inside : index < bitMap.sizeOfBitMap) :
    FindsLastRun (clearAt bitMap) index (rtlFindLastBackwardRunClear bitMap index) ↔
      ∀ i ≤ index, clearAt bitMap i = false := by
  constructor
  · intro finds
    by_contra clear
    simp only [not_forall, Bool.not_eq_false] at clear
    obtain ⟨i, within, isClear⟩ := clear
    obtain ⟨a, n, run, result⟩ := backwardRun_some inside ⟨i, within, isClear⟩
    have exact_ := congrArg Prod.fst (result.symm.trans (finds.found a n run))
    have positive := run.positive
    simp only at exact_
    omega
  · intro set
    rw [backwardRun_none inside set]
    exact ⟨fun a n run => absurd run (LastRun.no_run set), iff_of_true rfl fun a n => LastRun.no_run set⟩

theorem backward_run_iff_sample : FindsLastRun (clearAt sampleMap) 3 (rtlFindLastBackwardRunClear sampleMap 3) ↔
    ∀ i ≤ 3, clearAt sampleMap i = false :=
  backward_run_iff (by decide)

/-- Of a bitmap with eight clear bits the run that ends at index 3 has four, and 3 is returned. -/
theorem backward_run_short : LastRun (clearAt sampleMap) 3 0 4 ∧
    rtlFindLastBackwardRunClear sampleMap 3 = (3, some 0) ∧
      ¬ FindsLastRun (clearAt sampleMap) 3 (rtlFindLastBackwardRunClear sampleMap 3) := by
  have allClear : ∀ i < 4, clearAt sampleMap i = true := by decide
  have run : LastRun (clearAt sampleMap) 3 0 4 :=
    ⟨by decide, by decide, fun i _ before => allClear i (by omega), .inl rfl, fun i inside later => by omega⟩
  have result : rtlFindLastBackwardRunClear sampleMap 3 = (3, some 0) := by decide
  refine ⟨run, result, fun finds => ?_⟩
  rw [result] at finds
  cases finds.found 0 4 run

end Claim
end VeaOS.Rtl
