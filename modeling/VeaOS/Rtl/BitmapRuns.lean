import VeaOS.Foundation.BitRuns
import VeaOS.Rtl.Bitmap

/-! The searches for runs of bits. The search for clear bits gives up one place too early,
which matters for a run that is the whole bitmap; both go on where an index wraps. -/
namespace VeaOS.Rtl
open BitRuns Option

def bitAt (buffer : Nat → BitVec 32) (i : Nat) : Bool := (buffer (i / 32)).getLsbD (i % 32)

section RunLength

/-- The bit at an index is clear in the words that are read. -/
def zeroBit (read : Nat → BitVec 32) (i : Nat) : Bool := !bitAt read i

/-- The words in front of `buffer` were read; the last one's bits from the start on are the value. -/
structure Scanned (read : Nat → BitVec 32) (start buffer : Nat) (value : BitVec 32) : Prop where
  behind : start < buffer * 32
  bits : ∀ j < 32, value.getLsbD j =
    (decide (start ≤ (buffer - 1) * 32 + j) && !zeroBit read ((buffer - 1) * 32 + j))
  zeros : ∀ i, start ≤ i → i < (buffer - 1) * 32 → zeroBit read i = true

variable {read : Nat → BitVec 32}

theorem zeroBit_word (below : j < 32) : zeroBit read (buffer * 32 + j) = !(read buffer).getLsbD j := by
  rw [zeroBit, bitAt, show (buffer * 32 + j) / 32 = buffer by omega, show (buffer * 32 + j) % 32 = j by omega]

theorem scanned_first (read : Nat → BitVec 32) (start : Nat) :
    Scanned read start (start / 32 + 1) (read (start / 32) >>> (start % 32) <<< (start % 32)) where
  behind := by omega
  bits j below := by
    rw [Nat.add_sub_cancel, zeroBit_word below, BitVec.getLsbD_shiftLeft, BitVec.getLsbD_ushiftRight, Bool.not_not]
    by_cases before : j < start % 32
    · simp [before, show ¬ start ≤ start / 32 * 32 + j by omega]
    · simp [before, below, show start ≤ start / 32 * 32 + j by omega,
        show start % 32 + (j - start % 32) = j by omega]
  zeros i later before := by omega

theorem Scanned.zeros_all (scanned : Scanned read start buffer 0) (later : start ≤ i) (before : i < buffer * 32) :
    zeroBit read i = true := by
  by_cases earlier : i < (buffer - 1) * 32
  · exact scanned.zeros i later earlier
  · have last := scanned.bits (i - (buffer - 1) * 32) (by omega)
    rw [show (0 : BitVec 32).getLsbD _ = false from BitVec.getLsbD_zero,
      show (buffer - 1) * 32 + (i - (buffer - 1) * 32) = i by omega] at last
    simpa [later] using last.symm

theorem Scanned.next (scanned : Scanned read start buffer 0) : Scanned read start (buffer + 1) (read buffer) where
  behind := by have := scanned.behind; omega
  bits j below := by
    have := scanned.behind
    rw [Nat.add_sub_cancel, zeroBit_word below, Bool.not_not]
    simp [show start ≤ buffer * 32 + j by omega]
  zeros i later before := scanned.zeros_all later before

theorem skipZero_spec (left : Nat) (scanned : Scanned read start buffer value) :
    ∃ buffer' value', skipZero read left buffer value = (buffer', value') ∧ Scanned read start buffer' value' ∧
      (value' = 0 → buffer' = buffer + left) ∧ buffer' ≤ buffer + left := by
  induction left generalizing buffer value with
  | zero => exact ⟨buffer, value, rfl, scanned, fun _ => rfl, Nat.le_refl _⟩
  | succ left ih =>
    rw [skipZero]
    by_cases zero : value = 0
    · subst zero
      obtain ⟨buffer', value', result, scanned', ended, inside⟩ := ih scanned.next
      refine ⟨buffer', value', by rw [if_pos rfl, result], scanned', fun zero => ?_, by omega⟩
      rw [ended zero]
      omega
    · exact ⟨buffer, value, by rw [if_neg zero], scanned, fun zero' => absurd zero' zero, Nat.le_add_right _ _⟩

theorem bitScanForward_spec {value : BitVec 32} (nonzero : value ≠ 0) : bitScanForward value < 32 ∧
    value.getLsbD (bitScanForward value) = true ∧ ∀ j < bitScanForward value, value.getLsbD j = false := by
  cases found : (List.range 32).find? fun i => value.getLsbD i with
  | none =>
    refine absurd (BitVec.eq_of_getLsbD_eq fun j below => ?_) nonzero
    have unset := List.find?_eq_none.mp found j (List.mem_range.mpr below)
    rw [show (0 : BitVec 32).getLsbD j = false from BitVec.getLsbD_zero]
    simpa using unset
  | some k =>
    have isSet := List.find?_some found
    have member := List.mem_range.mp (List.mem_of_find?_eq_some found)
    rw [bitScanForward, found]
    refine ⟨member, isSet, fun j before => ?_⟩
    obtain ⟨_, i, bound, rfl, earlier⟩ := List.find?_eq_some_iff_getElem.mp found
    simp only [List.getElem_range] at before
    have unset := earlier j before
    simpa using unset

theorem lengthOfRun_spec (few : size + 31 < 0x100000000) :
    rtlpGetLengthOfRun read size start maxLength = runLength (zeroBit read) (size - start) start ∨
      rtlpGetLengthOfRun read size start maxLength = maxLength ∧
        maxLength ≤ runLength (zeroBit read) (size - start) start := by
  rw [rtlpGetLengthOfRun]
  by_cases outside : start ≥ size
  · rw [if_pos outside, Nat.sub_eq_zero_of_le outside]
    exact .inl rfl
  rw [if_neg outside]
  have whole : wrap (start % 32 + min maxLength (size - start) + 31) =
      start % 32 + min maxLength (size - start) + 31 := Nat.mod_eq_of_lt (by omega)
  obtain ⟨buffer, value, skipped, scanned, ended, inside⟩ := skipZero_spec
    (start / 32 + wrap (start % 32 + min maxLength (size - start) + 31) / 32 - (start / 32 + 1))
    (scanned_first read start)
  simp only [skipped]
  by_cases zero : value = 0
  · subst zero
    rw [if_pos rfl]
    have far := ended rfl
    rw [whole] at far
    have all : min maxLength (size - start) ≤ runLength (zeroBit read) (size - start) start := by
      refine le_runLength.mpr ⟨Nat.min_le_right _ _, fun k before => ?_⟩
      exact scanned.zeros_all (Nat.le_add_right _ _) (by omega)
    have atMost : runLength (zeroBit read) (size - start) start ≤ size - start := runLength_le
    omega
  · rw [if_neg zero]
    left
    obtain ⟨below, isSet, unset⟩ := bitScanForward_spec zero
    have behind := scanned.behind
    rw [scanned.bits _ below, Bool.and_eq_true, decide_eq_true_eq] at isSet
    obtain ⟨later, found⟩ := isSet
    have clear : ∀ i, start ≤ i → i < (buffer - 1) * 32 + bitScanForward value → zeroBit read i = true := by
      intro i after before
      by_cases earlier : i < (buffer - 1) * 32
      · exact scanned.zeros i after earlier
      · have last := unset (i - (buffer - 1) * 32) (by omega)
        rw [scanned.bits _ (by omega), show (buffer - 1) * 32 + (i - (buffer - 1) * 32) = i by omega] at last
        simpa [after] using last
    have length : wrap (buffer * 32 + bitScanForward value + 0x100000000 - 32 - start) =
        (buffer - 1) * 32 + bitScanForward value - start := by
      rw [whole] at inside
      rw [wrap, show buffer * 32 + bitScanForward value + 0x100000000 - 32 - start =
        (buffer - 1) * 32 + bitScanForward value - start + 0x100000000 by omega, Nat.add_mod_right]
      exact Nat.mod_eq_of_lt (by omega)
    rw [length]
    split
    · next longer =>
        refine (runLength_unique (Nat.le_refl _) (fun k before => ?_) (.inl rfl)).symm
        exact clear _ (Nat.le_add_right _ _) (by omega)
    · next inside =>
        refine (runLength_unique (by omega) (fun k before => ?_) (.inr ?_)).symm
        · exact clear _ (Nat.le_add_right _ _) (by omega)
        · rw [Nat.add_sub_of_le later]
          simpa using found

end RunLength

section Update
variable {put : BitVec 32 → BitVec 32 → BitVec 32} {pattern : BitVec 32} {value : Bool} {buffer : Nat → BitVec 32}

theorem highMask_bit (below : j < 32) : (BitVec.allOnes 32 <<< bits).getLsbD j = decide (bits ≤ j) := by
  rw [BitVec.getLsbD_shiftLeft, BitVec.getLsbD_allOnes]
  by_cases before : j < bits
  · simp [before]
  · simp [before, below, show j - bits < 32 by omega, show bits ≤ j by omega]

theorem middleMask_bit (below : j < 32) (few : bits + number ≤ 32) :
    (BitVec.allOnes 32 <<< bits <<< (32 - bits - number) >>> (32 - bits - number)).getLsbD j =
      decide (bits ≤ j ∧ j < bits + number) := by
  rw [BitVec.getLsbD_ushiftRight, BitVec.getLsbD_shiftLeft]
  by_cases inside : j < bits + number
  · rw [show 32 - bits - number + j - (32 - bits - number) = j by omega, highMask_bit below]
    simp [inside, show 32 - bits - number + j < 32 by omega]
  · simp [inside, show ¬ 32 - bits - number + j < 32 by omega]

def Puts (put : BitVec 32 → BitVec 32 → BitVec 32) (value : Bool) : Prop :=
  ∀ word mask : BitVec 32, ∀ j < 32, (put word mask).getLsbD j = if mask.getLsbD j then value else word.getLsbD j

theorem bitAt_put (puts : Puts put value) (word : Nat) (mask : BitVec 32) (i : Nat) :
    bitAt (Function.update buffer word (put (buffer word) mask)) i =
      if i / 32 = word ∧ mask.getLsbD (i % 32) then value else bitAt buffer i := by
  rw [bitAt]
  by_cases here : i / 32 = word
  · rw [here, Function.update_self, puts _ _ _ (Nat.mod_lt _ (by decide)), bitAt, here]
    simp
  · rw [Function.update_of_ne here, if_neg (fun both => here both.1), bitAt]

theorem bitAt_fill (filled : ∀ j < 32, pattern.getLsbD j = value) (word number i : Nat) :
    bitAt (rtlFillMemoryUlong buffer word (number / 8) pattern) i =
      if word * 32 ≤ i ∧ i < (word + number / 32) * 32 then value else bitAt buffer i := by
  rw [rtlFillMemoryUlong]
  split
  · rw [if_neg (by omega)]
  · rw [bitAt]
    by_cases inside : word * 32 ≤ i ∧ i < (word + number / 32) * 32
    · rw [if_pos inside, if_pos (by omega), filled _ (Nat.mod_lt _ (by decide))]
    · rw [if_neg inside, if_neg (by omega), bitAt]

theorem updateBits_spec (puts : Puts put value) (filled : ∀ j < 32, pattern.getLsbD j = value)
    (start number i : Nat) : bitAt (updateBits put pattern buffer start number) i =
      if start ≤ i ∧ i < start + number then value else bitAt buffer i := by
  have below : i % 32 < 32 := Nat.mod_lt _ (by decide)
  -- from a whole word on
  have aligned : ∀ (buffer : Nat → BitVec 32) (word number : Nat),
      bitAt (if number % 32 ≠ 0 then Function.update (rtlFillMemoryUlong buffer word (number / 8) pattern)
        (word + number / 32) (put (rtlFillMemoryUlong buffer word (number / 8) pattern (word + number / 32))
          (~~~(BitVec.allOnes 32 <<< (number % 32)))) else rtlFillMemoryUlong buffer word (number / 8) pattern) i =
        if word * 32 ≤ i ∧ i < word * 32 + number then value else bitAt buffer i := by
    intro buffer word number
    by_cases left : number % 32 ≠ 0
    · rw [if_pos left, bitAt_put puts, bitAt_fill filled, BitVec.getLsbD_not, highMask_bit below]
      by_cases last : i / 32 = word + number / 32 ∧ i % 32 < number % 32
      · rw [if_pos (by simp [last, below]), if_pos (by omega)]
      · rw [if_neg (by simp; omega)]
        by_cases inside : word * 32 ≤ i ∧ i < (word + number / 32) * 32
        · rw [if_pos inside, if_pos (by omega)]
        · rw [if_neg inside, if_neg (by omega)]
    · rw [if_neg left, bitAt_fill filled]
      by_cases inside : word * 32 ≤ i ∧ i < word * 32 + number
      · rw [if_pos inside, if_pos (by omega)]
      · rw [if_neg inside, if_neg (by omega)]
  rw [updateBits]
  by_cases short : start % 32 ≠ 0 ∧ number < 32 - start % 32
  · rw [if_pos short, bitAt_put puts, middleMask_bit below (by omega)]
    by_cases inside : start ≤ i ∧ i < start + number
    · rw [if_pos inside, if_pos (by simp; omega)]
    · rw [if_neg inside, if_neg (by simp; omega)]
  · rw [if_neg short]
    by_cases unaligned : start % 32 ≠ 0
    · simp only [if_pos unaligned]
      rw [aligned, bitAt_put puts, highMask_bit below]
      by_cases inside : start ≤ i ∧ i < start + number
      · rw [if_pos inside]
        by_cases later : (start / 32 + 1) * 32 ≤ i
        · rw [if_pos (by omega)]
        · rw [if_neg (by omega), if_pos (by simp; omega)]
      · rw [if_neg inside, if_neg (by omega), if_neg (by simp; omega)]
    · simp only [if_neg unaligned]
      rw [aligned]
      by_cases inside : start ≤ i ∧ i < start + number
      · rw [if_pos inside, if_pos (by omega)]
      · rw [if_neg inside, if_neg (by omega)]

theorem setBits_spec (bitMap : RtlBitmap) (start number i : Nat) :
    bitAt (rtlSetBits bitMap start number).buffer i =
      if start ≤ i ∧ i < start + number then true else bitAt bitMap.buffer i := by
  refine updateBits_spec (fun word mask j below => ?_) (fun j below => ?_) start number i
  · rw [BitVec.getLsbD_or]
    cases mask.getLsbD j <;> simp
  · rw [BitVec.getLsbD_allOnes, decide_eq_true below]

theorem clearBits_spec (bitMap : RtlBitmap) (start number i : Nat) :
    bitAt (rtlClearBits bitMap start number).buffer i =
      if start ≤ i ∧ i < start + number then false else bitAt bitMap.buffer i := by
  refine updateBits_spec (fun word mask j below => ?_) (fun j below => ?_) start number i
  · rw [BitVec.getLsbD_and, BitVec.getLsbD_not]
    cases mask.getLsbD j <;> simp [below]
  · exact BitVec.getLsbD_zero

end Update

section Search
variable {more : Nat → Nat → Bool} {skip length : Nat → Nat → Nat} {bit : Nat → Bool} {size n : Nat}

def goes (more : Nat → Nat → Bool) (n margin p : Nat) : Bool := more (wrap (p + n)) margin

/-- The two lengths are those of a run of the bits that are not wanted and of those that are. -/
structure Lengths (skip length : Nat → Nat → Nat) (bit : Nat → Bool) (size n : Nat) : Prop where
  skips : ∀ p, skip p maxIndex = runLength (fun i => !bit i) (size - p) p
  lengths : ∀ p, length p n = runLength bit (size - p) p ∨ length p n = n ∧ n ≤ runLength bit (size - p) p

theorem findLoop_eq (few : size + 62 < 0x100000000) (runs : Lengths skip length bit size n) (inside : p ≤ size) :
    findLoop more skip length n margin fuel p = pass (goes more n margin) bit size n fuel p := by
  induction fuel generalizing p with
  | zero => rfl
  | succ fuel ih =>
    have start : runStart bit size p ≤ size := runStart_le inside
    have end_ : runEnd bit size p ≤ size := runEnd_le inside
    have skipped : wrap (p + skip p maxIndex) = runStart bit size p := by
      rw [runs.skips]
      exact Nat.mod_eq_of_lt (by rw [runStart] at start; omega)
    rw [findLoop, BitRuns.pass, skipped]
    cases further : goes more n margin p with
    | false => rw [goes] at further; simp [further]
    | true =>
      rw [goes] at further
      simp only [further, if_true]
      by_cases long : n ≤ nextRun bit size p
      · have found : length (runStart bit size p) n ≥ n := by
          rcases runs.lengths (runStart bit size p) with same | ⟨same, _⟩
          · rw [same]
            exact long
          · exact same.ge
        rw [if_pos found, if_pos long]
      · have same : length (runStart bit size p) n = nextRun bit size p :=
          (runs.lengths (runStart bit size p)).resolve_right fun whole => long whole.2
        have next : wrap (runStart bit size p + nextRun bit size p) = runEnd bit size p :=
          Nat.mod_eq_of_lt (by rw [runEnd] at end_; omega)
        rw [same, if_neg long, if_neg long, next]
        exact ih end_

structure Compares (more : Nat → Nat → Bool) : Prop where
  below : next < margin → more next margin = true
  above : margin < next → more next margin = false

/-- No place at which a search looks lies so high that its sum wraps: the first search starts
at the hint, and the second one, when the first ends without a run, at 0. -/
structure Stops (more : Nat → Nat → Bool) (bit : Nat → Bool) (size n hint : Nat) : Prop where
  first : ∀ p, Reached (goes more n size) bit size n hint p → p + n < 0x100000000
  second : hint ≠ 0 → Ends (goes more n size) bit size n hint → ∀ p,
    Reached (goes more n (min (wrap (hint + n)) size)) bit size n 0 p → p + n < 0x100000000

def hintOf (size hint : Nat) : Nat := if hint ≥ size then 0 else hint

/-- The answer is an index where the bits are found, or none when there is no such place. -/
structure Finds (bit : Nat → Bool) (size n r : Nat) : Prop where
  none_ : r = maxIndex ↔ ¬ ∃ a, Window bit size n a
  found : r ≠ maxIndex → Window bit size n r

theorem window_lt (few : size + 62 < 0x100000000) (window : Window bit size n a) : a ≠ maxIndex := by
  have := window.inside
  rw [maxIndex]
  omega

theorem findBits_eq (few : size + 62 < 0x100000000) (runs : Lengths skip length bit size n) (positive : 0 < n)
    (fits : n ≤ size) : findBits more skip length size fuel n hint =
      (pass (goes more n size) bit size n fuel (hintOf size hint)).bind fun
        | some found => some found
        | none => if hintOf size hint = 0 then some maxIndex else
            (pass (goes more n (min (wrap (hintOf size hint + n)) size)) bit size n fuel 0).map
              (·.getD maxIndex) := by
  have inside : hintOf size hint ≤ size := by
    rw [hintOf]
    split <;> omega
  rw [findBits, if_neg (by omega)]
  have start : (if hint ≥ size then 0 else hint) = hintOf size hint := rfl
  simp only [start, if_neg (show n ≠ 0 by omega)]
  rw [findLoop_eq few runs inside]
  refine congrArg _ (funext fun result => ?_)
  cases result with
  | some found => rfl
  | none =>
    simp only [findLoop_eq few runs (Nat.zero_le size)]
    split
    · rfl
    · rw [map_eq_bind]
      rfl

theorem hintOf_le (size hint : Nat) : hintOf size hint ≤ size := by
  rw [hintOf]
  split <;> omega

theorem pass_wraps (few : size + 62 < 0x100000000) (compares : Compares more) (fits : n ≤ size)
    (inside : start ≤ size) (wide : n ≤ margin)
    (reached : Reached (goes more n margin) bit size n start p) (wraps : 0x100000000 ≤ p + n) (fuel : Nat) :
    pass (goes more n margin) bit size n fuel start = none := by
  have high := reached.le inside
  refine pass_along (Q := (· = none)) reached rfl (pass_stuck high (fun q later below => ?_)
    fun a later window => ?_) fuel
  · apply compares.below
    rw [wrap, show q + n = (q + n - 0x100000000) + 0x100000000 by omega, Nat.add_mod_right,
      Nat.mod_eq_of_lt (by omega)]
    omega
  · have := window.inside
    omega

theorem pass_answers (compares : Compares more) (positive : 0 < n) (inside : start ≤ size) (within : margin ≤ size)
    (whole : ∀ p, Reached (goes more n margin) bit size n start p → p + n < 0x100000000) :
    ∃ fuel result, pass (goes more n margin) bit size n fuel start = some result ∧
      match result with
      | some a => Window bit size n a
      | none => Ends (goes more n margin) bit size n start := by
  refine pass_ends inside (fun reached => ?_) .start
  have same : wrap (size + n) = size + n := Nat.mod_eq_of_lt (whole size reached)
  rw [goes, same]
  exact compares.above (by omega)

theorem missed (compares : Compares more) (positive : 0 < n) (inside : start ≤ size)
    (reached : Reached (goes more n margin) bit size n start q) (whole : q + n < 0x100000000)
    (stopped : goes more n margin q = false) (window : Window bit size n a) (later : start ≤ a)
    (near : a + n ≤ margin) : a = start ∧ a + n = margin ∧ more margin margin = false := by
  have behind := reached.le_window window positive later
  have ended := stopped
  rw [goes, wrap, Nat.mod_eq_of_lt whole] at ended
  have far : ¬ q + n < margin := fun before => by
    rw [compares.below before] at ended
    cases ended
  obtain rfl : a = q := by omega
  obtain rfl : a + n = margin := by omega
  refine ⟨?_, rfl, ended⟩
  have first : bit a = true := window.holds 0 positive
  have := window.inside
  rcases reached.place inside with same | atEnd | unset
  · exact same
  · omega
  · rw [first] at unset
    cases unset

/-- What an ending search for a run answers. -/
inductive Answer (more : Nat → Nat → Bool) (bit : Nat → Bool) (size n r : Nat) : Prop where
  | found (window : Window bit size n r)
  | nothing (none_ : r = maxIndex)
      (whole : ∀ a, Window bit size n a → a = 0 ∧ n = size ∧ more size size = false)

theorem search_answers (few : size + 62 < 0x100000000) (runs : Lengths skip length bit size n)
    (compares : Compares more) (positive : 0 < n) (fits : n ≤ size)
    (stops : Stops more bit size n (hintOf size hint)) :
    ∃ fuel r, findBits more skip length size fuel n hint = some r ∧ Answer more bit size n r := by
  simp only [findBits_eq few runs positive fits]
  have inside := hintOf_le size hint
  generalize hintOf size hint = start at *
  obtain ⟨fuel, result, ended, answer⟩ := pass_answers compares positive inside (Nat.le_refl _) stops.first
  cases result with
  | some a => exact ⟨fuel, a, by rw [ended, bind_some], .found answer⟩
  | none =>
    have ends := answer
    obtain ⟨q, reached, stopped⟩ := answer
    have behind : ∀ a, Window bit size n a → start ≤ a → a = start ∧ a + n = size ∧ more size size = false :=
      fun a window later => missed compares positive inside reached (stops.first q reached) stopped window later
        window.inside
    by_cases zero : start = 0
    · refine ⟨fuel, maxIndex, by rw [ended, bind_some, if_pos zero], .nothing rfl fun a window => ?_⟩
      obtain ⟨same, atEnd, equal⟩ := behind a window (zero ▸ Nat.zero_le a)
      exact ⟨same.trans zero, by omega, equal⟩
    have wholeStart := stops.first start .start
    have margin : wrap (start + n) = start + n := Nat.mod_eq_of_lt wholeStart
    have second := stops.second zero ends
    rw [margin] at second ⊢
    obtain ⟨fuel₂, result, ended₂, answer₂⟩ :=
      pass_answers compares positive (Nat.zero_le size) (Nat.min_le_right _ _) second
    refine ⟨fuel + fuel₂, result.getD maxIndex, ?_, ?_⟩
    · rw [pass_more ended, bind_some, if_neg zero, Nat.add_comm fuel, pass_more ended₂, map_some]
    · cases result with
      | some a => exact .found answer₂
      | none =>
        obtain ⟨q₂, reached₂, stopped₂⟩ := answer₂
        refine .nothing rfl fun a window => ?_
        have few_ := window.inside
        have before : a ≤ start := by
          by_contra later
          have := behind a window (by omega)
          omega
        obtain ⟨same, atEnd, equal⟩ := missed compares positive (Nat.zero_le size) reached₂
          (second q₂ reached₂) stopped₂ window (Nat.zero_le a) (by omega)
        have full : min (start + n) size = size := by omega
        rw [full] at atEnd equal
        exact ⟨same, by omega, equal⟩

theorem stops_of_answer (few : size + 62 < 0x100000000) (runs : Lengths skip length bit size n)
    (compares : Compares more) (positive : 0 < n) (fits : n ≤ size)
    (ended : findBits more skip length size fuel n hint = some r) : Stops more bit size n (hintOf size hint) := by
  rw [findBits_eq few runs positive fits] at ended
  have inside := hintOf_le size hint
  generalize hintOf size hint = start at *
  have first : ∀ p, Reached (goes more n size) bit size n start p → p + n < 0x100000000 := by
    intro p reached
    by_contra wraps
    rw [pass_wraps few compares fits inside fits reached (not_lt.mp wraps)] at ended
    cases ended
  refine ⟨first, fun nonzero ends p reached => ?_⟩
  by_contra wraps
  have wholeStart := first start .start
  have margin : wrap (start + n) = start + n := Nat.mod_eq_of_lt wholeStart
  rw [margin] at reached ended
  have never := pass_wraps few compares fits (Nat.zero_le size) (by omega) reached (not_lt.mp wraps)
  cases result : pass (goes more n size) bit size n fuel start with
  | none =>
    rw [result] at ended
    cases ended
  | some result' =>
    cases result' with
    | none =>
      rw [result, bind_some, if_neg nonzero, never] at ended
      cases ended
    | some a => exact ends.not_found fuel result

theorem search_iff (few : size + 62 < 0x100000000) (runs : Lengths skip length bit size n)
    (compares : Compares more) (positive : 0 < n) (fits : n ≤ size) :
    (∃ fuel r, findBits more skip length size fuel n hint = some r ∧ Finds bit size n r) ↔
      Stops more bit size n (hintOf size hint) ∧
        ¬ (more size size = false ∧ n = size ∧ Window bit size n 0) := by
  constructor
  · rintro ⟨fuel, r, ended, finds⟩
    refine ⟨stops_of_answer few runs compares positive fits ended, ?_⟩
    rintro ⟨equal, rfl, window⟩
    -- no place lets the search go on to the whole bitmap
    have unseen : ∀ {margin start fuel a}, start ≤ n → margin ≤ n →
        pass (goes more n margin) bit n n fuel start ≠ some (some a) := by
      intro margin start fuel a inside within found
      obtain ⟨p, reached, further, long⟩ := hits_of_pass .start found
      have fits := (window_runStart (reached.le inside) long).inside
      have before : p ≤ runStart bit n p := le_runStart
      obtain rfl : p = 0 := by omega
      rw [goes, Nat.zero_add, wrap, Nat.mod_eq_of_lt (by omega)] at further
      rcases within.lt_or_eq with less | rfl
      · rw [compares.above less] at further
        cases further
      · rw [equal] at further
        cases further
    have some_ : r ≠ maxIndex := fun none_ => finds.none_.mp none_ ⟨0, window⟩
    have inside := hintOf_le n hint
    rw [findBits_eq few runs positive fits] at ended
    generalize hintOf n hint = start at *
    cases first : pass (goes more n n) bit n n fuel start with
    | none =>
      rw [first] at ended
      cases ended
    | some result =>
      cases result with
      | some a => exact unseen inside (Nat.le_refl _) first
      | none =>
        simp only [first, bind_some] at ended
        split at ended
        · exact some_ (some.inj ended).symm
        · obtain ⟨result, second, answer⟩ := map_eq_some_iff.mp ended
          cases result with
          | none => exact some_ answer.symm
          | some a => exact unseen (Nat.zero_le _) (Nat.min_le_right _ _) second
  · rintro ⟨stops, notWhole⟩
    obtain ⟨fuel, r, ended, answer⟩ := search_answers few runs compares positive fits stops
    refine ⟨fuel, r, ended, ?_⟩
    cases answer with
    | found window =>
      have index := window_lt few window
      exact ⟨iff_of_false index fun none_ => none_ ⟨r, window⟩, fun _ => window⟩
    | nothing none_ whole =>
      refine ⟨iff_of_true none_ ?_, fun some_ => absurd none_ some_⟩
      rintro ⟨a, window⟩
      obtain ⟨rfl, full, equal⟩ := whole a window
      exact notWhole ⟨equal, full, window⟩

end Search

section Claims
variable {bitMap : RtlBitmap} {n hint : Nat}

def RtlBitmap.complement (bitMap : RtlBitmap) : RtlBitmap := { bitMap with buffer := fun i => ~~~bitMap.buffer i }

def clearAt (bitMap : RtlBitmap) : Nat → Bool := zeroBit bitMap.buffer
def setAt (bitMap : RtlBitmap) : Nat → Bool := bitAt bitMap.buffer

/-- Exactly the bits that are found take the value, and none when no index is returned. -/
def Updates (value : Bool) (bitMap bitMap' : RtlBitmap) (n r : Nat) : Prop :=
  bitMap'.sizeOfBitMap = bitMap.sizeOfBitMap ∧ ∀ i, bitAt bitMap'.buffer i =
    if r ≠ maxIndex ∧ r ≤ i ∧ i < r + n then value else bitAt bitMap.buffer i

/-- Both searches answer as they should, agree on a bitmap and its complement, and are followed by
the right update. -/
structure RunsFound (bitMap : RtlBitmap) (n hint : Nat) : Prop where
  clear : ∃ fuel r, rtlFindClearBits fuel bitMap n hint = some r ∧
    Finds (clearAt bitMap) bitMap.sizeOfBitMap n r
  set : ∃ fuel r, rtlFindSetBits fuel bitMap n hint = some r ∧ Finds (setAt bitMap) bitMap.sizeOfBitMap n r
  agree : ∃ fuel r, rtlFindClearBits fuel bitMap n hint = some r ∧
    ∃ fuel r', rtlFindSetBits fuel bitMap.complement n hint = some r' ∧ (r = maxIndex ↔ r' = maxIndex)
  clearAndSet : ∃ fuel r bitMap', rtlFindClearBits fuel bitMap n hint = some r ∧
    rtlFindClearBitsAndSet fuel bitMap n hint = some (r, bitMap') ∧ Updates true bitMap bitMap' n r
  setAndClear : ∃ fuel r bitMap', rtlFindSetBits fuel bitMap n hint = some r ∧
    rtlFindSetBitsAndClear fuel bitMap n hint = some (r, bitMap') ∧ Updates false bitMap bitMap' n r

def below (next margin : Nat) : Bool := decide (next < margin)
def notAbove (next margin : Nat) : Bool := decide (next ≤ margin)

/-- The run that is asked for is not the whole bitmap while it is clear, and no search comes to an
index whose sum with the length wraps. -/
structure Searchable (bitMap : RtlBitmap) (n hint : Nat) : Prop where
  notWhole : ¬ (n = bitMap.sizeOfBitMap ∧ ∀ i < n, clearAt bitMap i = true)
  clear : Stops below (clearAt bitMap) bitMap.sizeOfBitMap n (hintOf bitMap.sizeOfBitMap hint)
  set : Stops notAbove (setAt bitMap) bitMap.sizeOfBitMap n (hintOf bitMap.sizeOfBitMap hint)
  complement : Stops notAbove (clearAt bitMap) bitMap.sizeOfBitMap n (hintOf bitMap.sizeOfBitMap hint)

theorem compares_below : Compares below := ⟨fun less => by simpa [below] using less,
  fun above => by simp [below]; omega⟩

theorem compares_notAbove : Compares notAbove := ⟨fun less => by simp [notAbove]; omega,
  fun above => by simpa [notAbove] using above⟩

theorem zeroBit_complement (read : Nat → BitVec 32) (i : Nat) : zeroBit (fun i => ~~~read i) i = bitAt read i := by
  rw [zeroBit, bitAt, BitVec.getLsbD_not, decide_eq_true (Nat.mod_lt _ (by decide)), Bool.true_and,
    Bool.not_not, bitAt]

theorem lengths_of (few : size + 31 < 0x100000000) {read read' : Nat → BitVec 32}
    (opposite : ∀ i, zeroBit read' i = !zeroBit read i) :
    Lengths (rtlpGetLengthOfRun read' size) (rtlpGetLengthOfRun read size) (zeroBit read) size n where
  skips p := by
    have same : zeroBit read' = fun i => !zeroBit read i := funext opposite
    have atMost : runLength (zeroBit read') (size - p) p ≤ size - p := runLength_le
    rw [← same]
    refine (lengthOfRun_spec few).resolve_right fun whole => ?_
    have := whole.2
    rw [maxIndex] at this
    omega
  lengths p := lengthOfRun_spec few

theorem window_zero {bit : Nat → Bool} (full : n = size) : Window bit size n 0 ↔ ∀ i < n, bit i = true := by
  constructor
  · intro window i below
    have := window.holds i below
    rwa [Nat.zero_add] at this
  · exact fun all => ⟨by omega, fun k below => by rw [Nat.zero_add]; exact all k below⟩

theorem setBits_updates : Updates true bitMap (if r ≠ maxIndex then rtlSetBits bitMap r n else bitMap) n r := by
  by_cases some_ : r ≠ maxIndex
  · rw [if_pos some_]
    exact ⟨rfl, fun i => by simp only [setBits_spec, some_, ne_eq, not_false_eq_true, true_and]⟩
  · rw [if_neg some_]
    exact ⟨rfl, fun i => by simp [some_]⟩

theorem clearBits_updates :
    Updates false bitMap (if r ≠ maxIndex then rtlClearBits bitMap r n else bitMap) n r := by
  by_cases some_ : r ≠ maxIndex
  · rw [if_pos some_]
    exact ⟨rfl, fun i => by simp only [clearBits_spec, some_, ne_eq, not_false_eq_true, true_and]⟩
  · rw [if_neg some_]
    exact ⟨rfl, fun i => by simp [some_]⟩

theorem clearBitsAndSet_eq (found : rtlFindClearBits fuel bitMap n hint = some r) :
    rtlFindClearBitsAndSet fuel bitMap n hint =
      some (r, if r ≠ maxIndex then rtlSetBits bitMap r n else bitMap) := by
  rw [rtlFindClearBitsAndSet, found]
  rfl

theorem setBitsAndClear_eq (found : rtlFindSetBits fuel bitMap n hint = some r) :
    rtlFindSetBitsAndClear fuel bitMap n hint =
      some (r, if r ≠ maxIndex then rtlClearBits bitMap r n else bitMap) := by
  rw [rtlFindSetBitsAndClear, found]
  rfl

theorem clear_lengths (few : bitMap.sizeOfBitMap + 31 < 0x100000000) : Lengths (rtlpGetLengthOfRunSet bitMap)
    (rtlpGetLengthOfRunClear bitMap) (clearAt bitMap) bitMap.sizeOfBitMap n :=
  lengths_of few fun i => by rw [zeroBit_complement, zeroBit, Bool.not_not]

theorem set_lengths (few : bitMap.sizeOfBitMap + 31 < 0x100000000) : Lengths (rtlpGetLengthOfRunClear bitMap)
    (rtlpGetLengthOfRunSet bitMap) (setAt bitMap) bitMap.sizeOfBitMap n := by
  have same : zeroBit (fun i => ~~~bitMap.buffer i) = setAt bitMap := funext (zeroBit_complement bitMap.buffer)
  rw [← same]
  exact lengths_of few fun i => by rw [zeroBit_complement, zeroBit]

section Iff
variable (few : bitMap.sizeOfBitMap + 62 < 0x100000000) (positive : 0 < n) (fits : n ≤ bitMap.sizeOfBitMap)
include few positive fits

theorem clear_iff : (∃ fuel r, rtlFindClearBits fuel bitMap n hint = some r ∧
      Finds (clearAt bitMap) bitMap.sizeOfBitMap n r) ↔
    Stops below (clearAt bitMap) bitMap.sizeOfBitMap n (hintOf bitMap.sizeOfBitMap hint) ∧
      ¬ (n = bitMap.sizeOfBitMap ∧ ∀ i < n, clearAt bitMap i = true) := by
  have equal : below bitMap.sizeOfBitMap bitMap.sizeOfBitMap = false := by simp [below]
  refine (search_iff few (clear_lengths (by omega)) compares_below positive fits).trans ?_
  refine and_congr_right fun _ => not_congr ?_
  simp only [equal, true_and]
  exact and_congr_right fun full => window_zero full

theorem set_iff : (∃ fuel r, rtlFindSetBits fuel bitMap n hint = some r ∧
      Finds (setAt bitMap) bitMap.sizeOfBitMap n r) ↔
    Stops notAbove (setAt bitMap) bitMap.sizeOfBitMap n (hintOf bitMap.sizeOfBitMap hint) := by
  have equal : notAbove bitMap.sizeOfBitMap bitMap.sizeOfBitMap = true := by simp [notAbove]
  refine (search_iff few (set_lengths (by omega)) compares_notAbove positive fits).trans ?_
  simp [equal]

end Iff

theorem setAt_complement : setAt bitMap.complement = clearAt bitMap := by
  funext i
  rw [setAt, clearAt, RtlBitmap.complement, zeroBit, bitAt, BitVec.getLsbD_not,
    decide_eq_true (Nat.mod_lt _ (by decide)), Bool.true_and, bitAt]

theorem complement_iff (few : bitMap.sizeOfBitMap + 62 < 0x100000000) (positive : 0 < n)
    (fits : n ≤ bitMap.sizeOfBitMap) : (∃ fuel r, rtlFindSetBits fuel bitMap.complement n hint = some r ∧
      Finds (clearAt bitMap) bitMap.sizeOfBitMap n r) ↔
    Stops notAbove (clearAt bitMap) bitMap.sizeOfBitMap n (hintOf bitMap.sizeOfBitMap hint) := by
  have same : setAt bitMap.complement = clearAt bitMap := setAt_complement
  rw [← same]
  exact set_iff few positive fits

theorem too_long {bit : Nat → Bool} (long : size < n) : Finds bit size n maxIndex :=
  ⟨iff_of_true rfl fun ⟨_, window⟩ => by have := window.inside; omega, fun some_ => absurd rfl some_⟩

/-- For all sizes but the 62 largest. -/
theorem runs_found_iff (few : bitMap.sizeOfBitMap + 62 < 0x100000000) (positive : 0 < n) :
    RunsFound bitMap n hint ↔ (n ≤ bitMap.sizeOfBitMap → Searchable bitMap n hint) := by
  constructor
  · intro found fits
    obtain ⟨clear, notWhole⟩ := (clear_iff few positive fits).mp found.clear
    obtain ⟨_, _, _, fuel, r', ended, _⟩ := found.agree
    refine ⟨notWhole, clear, (set_iff few positive fits).mp found.set, ?_⟩
    have same : setAt bitMap.complement = clearAt bitMap := setAt_complement
    have runs : Lengths (rtlpGetLengthOfRunClear bitMap.complement) (rtlpGetLengthOfRunSet bitMap.complement)
        (setAt bitMap.complement) bitMap.sizeOfBitMap n :=
      set_lengths (show bitMap.sizeOfBitMap + 31 < 0x100000000 by omega)
    rw [← same]
    exact stops_of_answer few runs compares_notAbove positive fits ended
  · intro searchable
    have clear : ∃ fuel r, rtlFindClearBits fuel bitMap n hint = some r ∧
        Finds (clearAt bitMap) bitMap.sizeOfBitMap n r := by
      by_cases fits : n ≤ bitMap.sizeOfBitMap
      · exact (clear_iff few positive fits).mpr ⟨(searchable fits).clear, (searchable fits).notWhole⟩
      · exact ⟨0, maxIndex, if_pos (not_le.mp fits), too_long (not_le.mp fits)⟩
    have set : ∃ fuel r, rtlFindSetBits fuel bitMap n hint = some r ∧
        Finds (setAt bitMap) bitMap.sizeOfBitMap n r := by
      by_cases fits : n ≤ bitMap.sizeOfBitMap
      · exact (set_iff few positive fits).mpr (searchable fits).set
      · exact ⟨0, maxIndex, if_pos (not_le.mp fits), too_long (not_le.mp fits)⟩
    have complement : ∃ fuel r, rtlFindSetBits fuel bitMap.complement n hint = some r ∧
        Finds (clearAt bitMap) bitMap.sizeOfBitMap n r := by
      by_cases fits : n ≤ bitMap.sizeOfBitMap
      · exact (complement_iff few positive fits).mpr (searchable fits).complement
      · exact ⟨0, maxIndex, if_pos (not_le.mp fits), too_long (not_le.mp fits)⟩
    obtain ⟨fuel, r, ended, finds⟩ := clear
    obtain ⟨fuel₁, r₁, ended₁, finds₁⟩ := set
    obtain ⟨fuel₂, r₂, ended₂, finds₂⟩ := complement
    exact {
      clear := ⟨fuel, r, ended, finds⟩
      set := ⟨fuel₁, r₁, ended₁, finds₁⟩
      agree := ⟨fuel, r, ended, fuel₂, r₂, ended₂, finds.none_.trans finds₂.none_.symm⟩
      clearAndSet := ⟨fuel, r, _, ended, clearBitsAndSet_eq ended, setBits_updates⟩
      setAndClear := ⟨fuel₁, r₁, _, ended₁, setBitsAndClear_eq ended₁, clearBits_updates⟩ }

def sampleMap : RtlBitmap := ⟨8, fun _ => 0, by decide⟩

theorem runs_found_iff_sample :
    RunsFound sampleMap 7 1 ↔ (7 ≤ sampleMap.sizeOfBitMap → Searchable sampleMap 7 1) :=
  runs_found_iff (by decide) (by decide)

/-- All eight bits are clear, and a run of eight is not found. -/
theorem whole_bitmap_missed : (∀ i < 8, clearAt sampleMap i = true) ∧
    rtlFindClearBits 1 sampleMap 8 0 = some maxIndex ∧ ¬ RunsFound sampleMap 8 0 := by
  have allClear : ∀ i < 8, clearAt sampleMap i = true := by decide
  refine ⟨allClear, by decide, fun found => ?_⟩
  obtain ⟨fuel, r, ended, finds⟩ := found.clear
  have missing : r = maxIndex := by
    obtain _ | fuel := fuel
    · cases ended
    · exact (some.inj ended).symm
  exact finds.none_.mp missing ⟨0, (window_zero rfl).mpr allClear⟩

end Claims
end VeaOS.Rtl
