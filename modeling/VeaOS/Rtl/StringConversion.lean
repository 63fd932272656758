import Mathlib.Data.BitVec

/-! Conversion between strings of bytes and of 16-bit units. The lengths in bytes are computed
in 16 bits, while the loop counts the characters of the source. -/
namespace VeaOS.Rtl

/-- A counted string of units of `w` bits, with the memory from its buffer on. -/
structure CountedString (w : Nat) where
  length : BitVec 16
  maximumLength : BitVec 16
  buffer : Nat → BitVec w

abbrev AnsiString := CountedString 8

abbrev UnicodeString := CountedString 16

/-- What a conversion does: nothing, or only `Buffer = NULL`, or the destination, in whose buffer
all units up to the terminator are stored. -/
inductive Conversion (w : Nat) where
  | refused
  | noMemory
  | converted (destination : CountedString w) (terminator : Nat)

section Convert
variable {w : Nat}

def storeUnits (unit : Nat → BitVec w) : Nat → (Nat → BitVec w) → Nat → BitVec w
  | 0, buffer => buffer
  | i + 1, buffer => Function.update (storeUnits unit i buffer) i (unit i)

/-- What the two conversions have in common. -/
def convertString (reqBytes maxBytes : BitVec 16) (charCount : Nat) (unit : Nat → BitVec w)
    (allocate : BitVec 16 → Option (Nat → BitVec w)) (destination : CountedString w)
    (allocateDestinationString : Bool) : Conversion w :=
  let stored := fun buffer => Function.update (storeUnits unit charCount buffer) charCount 0
  if allocateDestinationString then
    match allocate maxBytes with
    | none => .noMemory
    | some buffer => .converted ⟨reqBytes, maxBytes, stored buffer⟩ charCount
  else if destination.maximumLength < maxBytes then .refused
  else .converted ⟨reqBytes, destination.maximumLength, stored destination.buffer⟩ charCount

def rtlAnsiStringToUnicodeString (allocate : BitVec 16 → Option (Nat → BitVec 16))
    (destination : Option UnicodeString) (source : Option AnsiString) (allocateDestinationString : Bool) :
    Conversion 16 :=
  match destination, source with
  | some destination, some source =>
    let reqBytes := source.length * 2
    convertString reqBytes (reqBytes + 2) source.length.toNat (fun i => (source.buffer i).setWidth 16)
      allocate destination allocateDestinationString
  | _, _ => .refused

def rtlUnicodeStringToAnsiString (allocate : BitVec 16 → Option (Nat → BitVec 8))
    (destination : Option AnsiString) (source : Option UnicodeString) (allocateDestinationString : Bool) :
    Conversion 8 :=
  match destination, source with
  | some destination, some source =>
    let reqBytes := source.length / 2
    convertString reqBytes (reqBytes + 1) reqBytes.toNat (fun i => (source.buffer i &&& 0xFF).setWidth 8)
      allocate destination allocateDestinationString
  | _, _ => .refused

theorem storeUnits_apply (unit : Nat → BitVec w) (count : Nat) (buffer : Nat → BitVec w) (i : Nat) :
    storeUnits unit count buffer i = if i < count then unit i else buffer i := by
  induction count with
  | zero => rfl
  | succ count ih =>
    rw [storeUnits, Function.update_apply, ih]
    split
    · next same =>
        subst same
        rw [if_pos (Nat.lt_succ_self _)]
    · next other => simp only [Nat.lt_succ_iff_lt_or_eq, other, or_false]

end Convert

section Bounds
variable {w : Nat} {reqBytes maxBytes : BitVec 16} {charCount : Nat} {unit : Nat → BitVec w}
  {allocate : BitVec 16 → Option (Nat → BitVec w)} {destination : CountedString w} {allocated : Bool}

/-- All units that were stored, and the new length, are within `MaximumLength`. -/
def Conversion.Bounded : Conversion w → Prop
  | .converted destination terminator =>
    (terminator + 1) * (w / 8) ≤ destination.maximumLength.toNat ∧
      destination.length ≤ destination.maximumLength
  | _ => True

/-- There is no memory of the size that is asked for, or no room for it in the caller's buffer. -/
def Refuses (maxBytes : BitVec 16) (allocate : BitVec 16 → Option (Nat → BitVec w))
    (destination : CountedString w) (allocateDestinationString : Bool) : Prop :=
  if allocateDestinationString then allocate maxBytes = none else destination.maximumLength < maxBytes

theorem convertString_cases (reqBytes maxBytes : BitVec 16) :
    (Refuses maxBytes allocate destination allocated ∧
      (convertString reqBytes maxBytes charCount unit allocate destination allocated = .refused ∨
        convertString reqBytes maxBytes charCount unit allocate destination allocated = .noMemory)) ∨
    ¬ Refuses maxBytes allocate destination allocated ∧ ∃ maximumLength buffer, maxBytes ≤ maximumLength ∧
      convertString reqBytes maxBytes charCount unit allocate destination allocated =
        .converted ⟨reqBytes, maximumLength, buffer⟩ charCount ∧ ∀ i < charCount, buffer i = unit i := by
  have stored : ∀ buffer : Nat → BitVec w, ∀ i < charCount,
      Function.update (storeUnits unit charCount buffer) charCount 0 i = unit i := fun buffer i below => by
    rw [Function.update_of_ne below.ne, storeUnits_apply, if_pos below]
  rw [Refuses, convertString]
  cases allocated with
  | true =>
    simp only [if_true]
    cases block : allocate maxBytes with
    | none => exact .inl ⟨rfl, .inr rfl⟩
    | some buffer => exact .inr ⟨nofun, maxBytes, _, BitVec.le_refl _, rfl, stored buffer⟩
  | false =>
    simp only [Bool.false_eq_true, if_false]
    split
    · next small => exact .inl ⟨small, .inl rfl⟩
    · next room => exact .inr ⟨room, _, _, BitVec.not_lt.mp room, rfl, stored _⟩

theorem convertString_bounded (fits : (charCount + 1) * (w / 8) ≤ maxBytes.toNat) (atMost : reqBytes ≤ maxBytes) :
    (convertString reqBytes maxBytes charCount unit allocate destination allocated).Bounded := by
  rcases convertString_cases reqBytes maxBytes with
    ⟨_, same | same⟩ | ⟨_, maximumLength, buffer, room, same, _⟩
  · rw [same]
    trivial
  · rw [same]
    trivial
  · rw [same]
    exact ⟨fits.trans room, BitVec.le_trans atMost room⟩

theorem unicodeToAnsi_bounded (allocate : BitVec 16 → Option (Nat → BitVec 8)) (destination : Option AnsiString)
    (source : Option UnicodeString) (allocated : Bool) :
    (rtlUnicodeStringToAnsiString allocate destination source allocated).Bounded := by
  cases destination with
  | none => trivial
  | some destination =>
    cases source with
    | none => trivial
    | some source =>
      have half : (source.length / 2).toNat = source.length.toNat / 2 := rfl
      have whole : (source.length / 2 + 1).toNat = source.length.toNat / 2 + 1 := by
        have one : (1 : BitVec 16).toNat = 1 := rfl
        have small := source.length.isLt
        rw [BitVec.toNat_add, half, one]
        exact Nat.mod_eq_of_lt (by omega)
      refine convertString_bounded ?_ ?_
      · rw [whole, half]
        omega
      · rw [BitVec.le_def, whole, half]
        omega

end Bounds

section RoundTrip
variable {toUnicode : BitVec 16 → Option (Nat → BitVec 16)} {toAnsi : BitVec 16 → Option (Nat → BitVec 8)}
  {wide : UnicodeString} {source narrow : AnsiString} {allocateWide allocateNarrow : Bool}

/-- The bytes of a string that comes out of a conversion are those of another one. -/
def Conversion.GivesBack (source : AnsiString) : Conversion 8 → Prop
  | .converted destination _ => destination.length = source.length ∧
      ∀ i < source.length.toNat, destination.buffer i = source.buffer i
  | _ => True

/-- A string goes to 16-bit units and back, into the caller's buffers or allocated ones. -/
def RoundTrips (toUnicode : BitVec 16 → Option (Nat → BitVec 16)) (toAnsi : BitVec 16 → Option (Nat → BitVec 8))
    (wide : UnicodeString) (narrow source : AnsiString) (allocateWide allocateNarrow : Bool) : Prop :=
  (rtlAnsiStringToUnicodeString toUnicode (some wide) (some source) allocateWide).Bounded ∧
    ∀ unicode terminator,
      rtlAnsiStringToUnicodeString toUnicode (some wide) (some source) allocateWide =
        .converted unicode terminator →
      (rtlUnicodeStringToAnsiString toAnsi (some narrow) (some unicode) allocateNarrow).Bounded ∧
      (rtlUnicodeStringToAnsiString toAnsi (some narrow) (some unicode) allocateNarrow).GivesBack source

theorem lowByte_setWidth (x : BitVec 8) : (x.setWidth 16 &&& 0xFF).setWidth 8 = x := by
  apply BitVec.eq_of_toNat_eq
  have small := x.isLt
  have mask : (0xFF : BitVec 16).toNat = 2 ^ 8 - 1 := rfl
  rw [BitVec.toNat_setWidth, BitVec.toNat_and, mask, Nat.and_two_pow_sub_one_eq_mod, BitVec.toNat_setWidth]
  omega

theorem wideSizes (short : source.length.toNat ≤ 32766) :
    (source.length * 2).toNat = source.length.toNat * 2 ∧
      (source.length * 2 + 2).toNat = source.length.toNat * 2 + 2 := by
  have two : (2 : BitVec 16).toNat = 2 := rfl
  have twice : (source.length * 2).toNat = source.length.toNat * 2 := by
    rw [BitVec.toNat_mul, two]
    exact Nat.mod_eq_of_lt (by omega)
  refine ⟨twice, ?_⟩
  rw [BitVec.toNat_add, twice, two]
  exact Nat.mod_eq_of_lt (by omega)

theorem givesBack {unicode : UnicodeString} (length : unicode.length = source.length * 2)
    (short : source.length.toNat ≤ 32766)
    (units : ∀ i < source.length.toNat, unicode.buffer i = (source.buffer i).setWidth 16) :
    (rtlUnicodeStringToAnsiString toAnsi (some narrow) (some unicode) allocateNarrow).GivesBack source := by
  have half : unicode.length / 2 = source.length := by
    apply BitVec.eq_of_toNat_eq
    have two : (2 : BitVec 16).toNat = 2 := rfl
    rw [length, BitVec.toNat_udiv, (wideSizes short).1, two]
    omega
  rw [rtlUnicodeStringToAnsiString, half]
  rcases convertString_cases source.length (source.length + 1) with
    ⟨_, same | same⟩ | ⟨_, maximumLength, buffer, _, same, bytes⟩
  · rw [same]
    trivial
  · rw [same]
    trivial
  · rw [same]
    refine ⟨rfl, fun i below => ?_⟩
    exact (bytes i below).trans (by rw [units i below, lowByte_setWidth])

theorem round_trip_iff : RoundTrips toUnicode toAnsi wide narrow source allocateWide allocateNarrow ↔
    source.length.toNat ≤ 32766 ∨ Refuses (source.length * 2 + 2) toUnicode wide allocateWide := by
  rw [RoundTrips]
  simp only [rtlAnsiStringToUnicodeString]
  rcases convertString_cases (source.length * 2) (source.length * 2 + 2) with
    ⟨refuses, same | same⟩ | ⟨proceeds, maximumLength, buffer, room, same, units⟩
  · rw [same]
    exact iff_of_true ⟨trivial, nofun⟩ (.inr refuses)
  · rw [same]
    exact iff_of_true ⟨trivial, nofun⟩ (.inr refuses)
  · rw [same, or_iff_left proceeds]
    constructor
    · rintro ⟨⟨inside, _⟩, _⟩
      have small := maximumLength.isLt
      simp only at inside
      omega
    · intro short
      obtain ⟨twice, whole⟩ := wideSizes short
      rw [BitVec.le_def, whole] at room
      refine ⟨⟨by simp only; omega, ?_⟩, ?_⟩
      · rw [BitVec.le_def, twice]
        exact Nat.le_trans (by omega) room
      · rintro unicode terminator converted
        cases converted
        exact ⟨unicodeToAnsi_bounded .., givesBack rfl short units⟩

/-- 32768 bytes are stored in a buffer of two, since their size in units is 0. -/
theorem wrapped_size : ¬ (rtlAnsiStringToUnicodeString (fun _ => none) (some ⟨0, 2, fun _ => 0⟩)
      (some ⟨0x8000, 0x8000, fun _ => 0x41⟩) false).Bounded ∧
    ¬ RoundTrips (fun _ => none) (fun _ => none) ⟨0, 2, fun _ => 0⟩ ⟨0, 0, fun _ => 0⟩
      ⟨0x8000, 0x8000, fun _ => 0x41⟩ false false := by
  have outside : ¬ (rtlAnsiStringToUnicodeString (fun _ => none) (some ⟨0, 2, fun _ => 0⟩)
      (some ⟨0x8000, 0x8000, fun _ => 0x41⟩) false).Bounded := fun bounded => absurd bounded.1 (by decide)
  exact ⟨outside, fun trips => outside trips.1⟩

end RoundTrip
end VeaOS.Rtl
