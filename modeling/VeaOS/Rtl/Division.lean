import Mathlib.Data.BitVec
import Mathlib.Tactic.Ring

/-! Division of 64-bit numbers on a 32-bit machine, bit by bit where a number does not fit a word.
Signed numbers wrap. -/
namespace VeaOS.Rtl

open BitVec

structure Division where
  quotient : BitVec 64
  rem : BitVec 64
  deriving DecidableEq

section Program

/-- The bit `i` of the dividend comes into the remainder. -/
def divideStep (dividend divisor : BitVec 64) (i : Nat) (d : Division) : Division :=
  let rem := d.rem <<< 1 ||| (dividend >>> i &&& 1)
  if rem ≥ divisor then ⟨d.quotient ||| 1#64 <<< i, rem - divisor⟩ else ⟨d.quotient, rem⟩

def divideLoop (dividend divisor : BitVec 64) : Nat → Division → Division
  | 0, d => d
  | i + 1, d => divideLoop dividend divisor i (divideStep dividend divisor i d)

/-- The quotient, and what is stored where a remainder is asked for. -/
def rtlDivideUnsigned64 (dividend divisor : BitVec 64) : Division :=
  if divisor = 0 then ⟨0, 0⟩
  else if dividend ≤ 0xFFFFFFFF ∧ divisor ≤ 0xFFFFFFFF then
    ⟨(dividend.setWidth 32 / divisor.setWidth 32).setWidth 64,
      (dividend.setWidth 32 % divisor.setWidth 32).setWidth 64⟩
  else divideLoop dividend divisor 64 ⟨0, 0⟩

def rtlDivideSigned64 (dividend divisor : BitVec 64) : Division :=
  if divisor = 0 then ⟨0, 0⟩
  else
    let isQuotientNegative := decide (dividend.toInt < 0) ^^ decide (divisor.toInt < 0)
    let isRemainderNegative := decide (dividend.toInt < 0)
    let absDividend := if dividend.toInt < 0 then -dividend else dividend
    let absDivisor := if divisor.toInt < 0 then -divisor else divisor
    let unsigned := rtlDivideUnsigned64 absDividend absDivisor
    ⟨if isQuotientNegative then -unsigned.quotient else unsigned.quotient,
      if isRemainderNegative then -unsigned.rem else unsigned.rem⟩

end Program

section Unsigned
variable {dividend divisor : BitVec 64} {d : Division}

/-- The bits from `i` on are divided. -/
structure DividedFrom (dividend divisor : BitVec 64) (i : Nat) (d : Division) : Prop where
  quotient : d.quotient.toNat = dividend.toNat / 2 ^ i / divisor.toNat * 2 ^ i
  rem : d.rem.toNat = dividend.toNat / 2 ^ i % divisor.toNat

theorem shift_in_bit (x y : BitVec 64) (room : x.toNat < 2 ^ 63) :
    (x <<< 1 ||| (y &&& 1)).toNat = 2 * x.toNat + y.toNat % 2 := by
  have shifted : (x <<< 1).toNat = x.toNat <<< 1 := by
    rw [toNat_shiftLeft, Nat.shiftLeft_eq]
    exact Nat.mod_eq_of_lt (by omega)
  have bit : (y &&& 1).toNat = y.toNat % 2 := by
    rw [toNat_and]
    exact Nat.and_one_is_mod y.toNat
  rw [toNat_or, shifted, bit, ← Nat.shiftLeft_add_eq_or_of_lt (by omega), Nat.shiftLeft_eq]
  omega

theorem set_bit (x : BitVec 64) (below : i < 64) (clear : x.toNat = k * 2 ^ (i + 1)) :
    (x ||| 1#64 <<< i).toNat = x.toNat + 2 ^ i := by
  have small : 2 ^ i < 2 ^ 64 := Nat.pow_lt_pow_right (by decide) below
  have bit : (1#64 <<< i).toNat = 2 ^ i := by
    rw [toNat_shiftLeft, Nat.shiftLeft_eq]
    exact (Nat.mod_eq_of_lt (by simpa using small)).trans (by simp)
  have next : 2 ^ i < 2 ^ (i + 1) := Nat.pow_lt_pow_right (by decide) (Nat.lt_succ_self i)
  rw [toNat_or, bit, clear, ← Nat.shiftLeft_eq, ← Nat.shiftLeft_add_eq_or_of_lt next]

theorem DividedFrom.step (divided : DividedFrom dividend divisor (i + 1) d) (below : i < 64)
    (positive : 0 < divisor.toNat) : DividedFrom dividend divisor i (divideStep dividend divisor i d) := by
  have half : dividend.toNat / 2 ^ (i + 1) = dividend.toNat / 2 ^ i / 2 := by
    rw [Nat.div_div_eq_div_mul, pow_succ]
  have room : d.rem.toNat < 2 ^ 63 := by
    have scanned : d.rem.toNat ≤ dividend.toNat / 2 ^ i / 2 := by
      rw [divided.rem, half]
      exact Nat.mod_le _ _
    have atMost : dividend.toNat / 2 ^ i ≤ dividend.toNat := Nat.div_le_self _ _
    have bound := dividend.isLt
    omega
  have shifted : (d.rem <<< 1 ||| (dividend >>> i &&& 1)).toNat =
      2 * (dividend.toNat / 2 ^ i / 2 % divisor.toNat) + dividend.toNat / 2 ^ i % 2 := by
    rw [shift_in_bit _ _ room, divided.rem, half, toNat_ushiftRight, Nat.shiftRight_eq_div_pow]
  have quotient := divided.quotient
  rw [half] at quotient
  have whole : 2 * (dividend.toNat / 2 ^ i / 2) + dividend.toNat / 2 ^ i % 2 = dividend.toNat / 2 ^ i :=
    Nat.div_add_mod _ 2
  have parts := Nat.div_add_mod (dividend.toNat / 2 ^ i / 2) divisor.toNat
  have small := Nat.mod_lt (dividend.toNat / 2 ^ i / 2) positive
  obtain ⟨n, scanned⟩ : ∃ n, dividend.toNat / 2 ^ i = n := ⟨_, rfl⟩
  rw [scanned] at quotient shifted whole parts small
  generalize n / 2 / divisor.toNat = q at *
  generalize n / 2 % divisor.toNat = r at *
  rw [divideStep]
  by_cases enough : d.rem <<< 1 ||| (dividend >>> i &&& 1) ≥ divisor
  · have atLeast : divisor.toNat ≤ 2 * r + n % 2 := shifted ▸ le_def.mp enough
    have result : n / divisor.toNat = 2 * q + 1 ∧ n % divisor.toNat = 2 * r + n % 2 - divisor.toNat := by
      refine (Nat.div_mod_unique positive).mpr ⟨?_, by omega⟩
      rw [Nat.mul_succ, Nat.mul_left_comm]
      omega
    rw [if_pos enough]
    constructor
    · rw [scanned, result.1, set_bit d.quotient below quotient, quotient]
      ring
    · rw [scanned, result.2, toNat_sub_of_le enough, shifted]
  · have less : 2 * r + n % 2 < divisor.toNat := by
      rw [ge_iff_le, le_def, shifted] at enough
      exact Nat.lt_of_not_le enough
    have result : n / divisor.toNat = 2 * q ∧ n % divisor.toNat = 2 * r + n % 2 := by
      refine (Nat.div_mod_unique positive).mpr ⟨?_, less⟩
      rw [Nat.mul_left_comm]
      omega
    rw [if_neg enough]
    constructor
    · rw [scanned, result.1, quotient]
      ring
    · rw [scanned, result.2]
      exact shifted

theorem DividedFrom.loop (divided : DividedFrom dividend divisor i d) (inside : i ≤ 64)
    (positive : 0 < divisor.toNat) : DividedFrom dividend divisor 0 (divideLoop dividend divisor i d) := by
  induction i generalizing d with
  | zero => exact divided
  | succ i ih => exact ih (divided.step inside positive) (Nat.le_of_succ_le inside)

theorem divideLoop_eq (nonzero : divisor ≠ 0) :
    divideLoop dividend divisor 64 ⟨0, 0⟩ = ⟨dividend / divisor, dividend % divisor⟩ := by
  have positive : 0 < divisor.toNat := Nat.pos_of_ne_zero fun zero => nonzero (eq_of_toNat_eq zero)
  have none_ : dividend.toNat / 2 ^ 64 = 0 := Nat.div_eq_of_lt dividend.isLt
  have start : DividedFrom dividend divisor 64 ⟨0, 0⟩ := ⟨by rw [none_]; simp, by rw [none_]; simp⟩
  have done := start.loop (Nat.le_refl _) positive
  have quotient := done.quotient
  have rem := done.rem
  rw [pow_zero, Nat.div_one] at quotient rem
  rw [Nat.mul_one, ← toNat_udiv] at quotient
  rw [← toNat_umod] at rem
  exact congrArg₂ Division.mk (eq_of_toNat_eq quotient) (eq_of_toNat_eq rem)

theorem shortDivision_eq (dividendFits : dividend ≤ 0xFFFFFFFF) (divisorFits : divisor ≤ 0xFFFFFFFF) :
    (dividend.setWidth 32 / divisor.setWidth 32).setWidth 64 = dividend / divisor ∧
      (dividend.setWidth 32 % divisor.setWidth 32).setWidth 64 = dividend % divisor := by
  have first : (dividend.setWidth 32).toNat = dividend.toNat :=
    (toNat_setWidth ..).trans (Nat.mod_eq_of_lt (Nat.lt_succ_of_le (le_def.mp dividendFits)))
  have second : (divisor.setWidth 32).toNat = divisor.toNat :=
    (toNat_setWidth ..).trans (Nat.mod_eq_of_lt (Nat.lt_succ_of_le (le_def.mp divisorFits)))
  have quotient : dividend.toNat / divisor.toNat < 2 ^ 64 := (Nat.div_le_self _ _).trans_lt dividend.isLt
  have rem : dividend.toNat % divisor.toNat < 2 ^ 64 := (Nat.mod_le _ _).trans_lt dividend.isLt
  constructor
  · refine eq_of_toNat_eq ?_
    rw [toNat_setWidth, toNat_udiv, toNat_udiv, first, second, Nat.mod_eq_of_lt quotient]
  · refine eq_of_toNat_eq ?_
    rw [toNat_setWidth, toNat_umod, toNat_umod, first, second, Nat.mod_eq_of_lt rem]

theorem divideUnsigned_eq (nonzero : divisor ≠ 0) :
    rtlDivideUnsigned64 dividend divisor = ⟨dividend / divisor, dividend % divisor⟩ := by
  rw [rtlDivideUnsigned64, if_neg nonzero]
  split
  · next fits =>
      obtain ⟨quotient, rem⟩ := shortDivision_eq fits.1 fits.2
      rw [quotient, rem]
  · exact divideLoop_eq nonzero

/-- The quotient by 0 is 0. -/
theorem divideUnsigned_quotient (dividend divisor : BitVec 64) :
    (rtlDivideUnsigned64 dividend divisor).quotient = dividend / divisor := by
  by_cases zero : divisor = 0
  · rw [rtlDivideUnsigned64, if_pos zero, zero]
    exact udiv_zero.symm
  · rw [divideUnsigned_eq zero]

end Unsigned
section Signed
variable {dividend divisor : BitVec 64} {n d q r : Int}

theorem magnitude_toNat (x : BitVec 64) : (if x.toInt < 0 then -x else x).toNat = x.toInt.natAbs := by
  have bound := x.isLt
  have value := x.toInt_eq_toNat_cond
  split
  · next negative =>
      rw [toNat_neg, Nat.mod_eq_of_lt (by omega)]
      omega
  · omega

theorem tdiv_eq_magnitudes (n d : Int) : n.tdiv d =
    if (decide (n < 0) ^^ decide (d < 0)) = true then -((n.natAbs / d.natAbs : Nat) : Int)
    else ((n.natAbs / d.natAbs : Nat) : Int) := by
  have magnitudes : ∀ a b : Nat, (a : Int).tdiv b = ((a / b : Nat) : Int) := fun _ _ => rfl
  rcases lt_or_ge n 0 with negative | positive
  · obtain ⟨a, rfl⟩ : ∃ a : Nat, n = -(a : Int) := ⟨n.natAbs, by omega⟩
    rw [decide_eq_true negative, Int.neg_tdiv, Int.natAbs_neg, Int.natAbs_natCast]
    rcases lt_or_ge d 0 with below | above
    · obtain ⟨b, rfl⟩ : ∃ b : Nat, d = -(b : Int) := ⟨d.natAbs, by omega⟩
      rw [decide_eq_true below, Int.tdiv_neg, Int.neg_neg, Int.natAbs_neg, Int.natAbs_natCast, magnitudes]
      rfl
    · obtain ⟨b, rfl⟩ : ∃ b : Nat, d = (b : Int) := ⟨d.natAbs, by omega⟩
      rw [decide_eq_false (Int.not_lt.mpr above), Int.natAbs_natCast, magnitudes]
      rfl
  · obtain ⟨a, rfl⟩ : ∃ a : Nat, n = (a : Int) := ⟨n.natAbs, by omega⟩
    rw [decide_eq_false (Int.not_lt.mpr positive), Int.natAbs_natCast]
    rcases lt_or_ge d 0 with below | above
    · obtain ⟨b, rfl⟩ : ∃ b : Nat, d = -(b : Int) := ⟨d.natAbs, by omega⟩
      rw [decide_eq_true below, Int.tdiv_neg, Int.natAbs_neg, Int.natAbs_natCast, magnitudes]
      rfl
    · obtain ⟨b, rfl⟩ : ∃ b : Nat, d = (b : Int) := ⟨d.natAbs, by omega⟩
      rw [decide_eq_false (Int.not_lt.mpr above), Int.natAbs_natCast, magnitudes]
      rfl

theorem tmod_eq_magnitudes (n d : Int) : n.tmod d =
    if n < 0 then -((n.natAbs % d.natAbs : Nat) : Int) else ((n.natAbs % d.natAbs : Nat) : Int) := by
  have magnitudes : ∀ a b : Nat, (a : Int).tmod b = ((a % b : Nat) : Int) := fun _ _ => rfl
  have positive : ∀ a : Nat, (a : Int).tmod d = ((a % d.natAbs : Nat) : Int) := by
    intro a
    rcases Int.natAbs_eq d with same | same
    · rw [same, magnitudes, Int.natAbs_natCast]
    · rw [same, Int.tmod_neg, magnitudes, Int.natAbs_neg, Int.natAbs_natCast]
  split
  · next negative =>
      obtain ⟨a, rfl⟩ : ∃ a : Nat, n = -(a : Int) := ⟨n.natAbs, by omega⟩
      rw [Int.neg_tmod, positive, Int.natAbs_neg, Int.natAbs_natCast]
  · next negative =>
      obtain ⟨a, rfl⟩ : ∃ a : Nat, n = (a : Int) := ⟨n.natAbs, by omega⟩
      rw [positive, Int.natAbs_natCast]

theorem divideSigned_eq (nonzero : divisor ≠ 0) : rtlDivideSigned64 dividend divisor =
    ⟨BitVec.ofInt 64 (dividend.toInt.tdiv divisor.toInt), BitVec.ofInt 64 (dividend.toInt.tmod divisor.toInt)⟩ := by
  have left := magnitude_toNat dividend
  have right := magnitude_toNat divisor
  have nonzero' : (if divisor.toInt < 0 then -divisor else divisor) ≠ 0 := by
    intro zero
    have value : divisor.toInt = 0 := by
      rw [zero] at right
      simpa using right.symm
    exact nonzero (BitVec.eq_of_toInt_eq value)
  have quotient : ∀ x y : BitVec 64, x / y = BitVec.ofInt 64 ((x.toNat / y.toNat : Nat) : Int) := by
    intro x y
    refine BitVec.eq_of_toNat_eq ?_
    rw [BitVec.ofInt_natCast, BitVec.toNat_ofNat, BitVec.toNat_udiv,
      Nat.mod_eq_of_lt ((Nat.div_le_self _ _).trans_lt x.isLt)]
  have rem : ∀ x y : BitVec 64, x % y = BitVec.ofInt 64 ((x.toNat % y.toNat : Nat) : Int) := by
    intro x y
    refine BitVec.eq_of_toNat_eq ?_
    rw [BitVec.ofInt_natCast, BitVec.toNat_ofNat, BitVec.toNat_umod,
      Nat.mod_eq_of_lt ((Nat.mod_le _ _).trans_lt x.isLt)]
  rw [rtlDivideSigned64, if_neg nonzero]
  simp only [divideUnsigned_eq nonzero', quotient, rem, left, right, tdiv_eq_magnitudes, tmod_eq_magnitudes,
    decide_eq_true_eq]
  refine congrArg₂ Division.mk ?_ ?_
  · split
    · exact BitVec.ofInt_neg.symm
    · rfl
  · split
    · exact BitVec.ofInt_neg.symm
    · rfl

theorem divideSigned_quotient (dividend divisor : BitVec 64) :
    (rtlDivideSigned64 dividend divisor).quotient = BitVec.ofInt 64 (dividend.toInt.tdiv divisor.toInt) := by
  by_cases zero : divisor = 0
  · rw [rtlDivideSigned64, if_pos zero, zero]
    exact (congrArg (BitVec.ofInt 64) (Int.tdiv_zero _)).symm
  · rw [divideSigned_eq zero]

end Signed

section Claim
variable {dividend divisor : BitVec 64}

structure QuotientOf (n d q r : Nat) : Prop where
  total : q * d + r = n
  less : r < d

/-- The remainder has the sign of the dividend. -/
structure SignedQuotientOf (n d q r : Int) : Prop where
  total : q * d + r = n
  less : r.natAbs < d.natAbs
  negative : n < 0 → r ≤ 0
  positive : 0 ≤ n → 0 ≤ r

theorem quotientOf_iff (positive : 0 < d) : QuotientOf n d q r ↔ q = n / d ∧ r = n % d := by
  refine Iff.trans ?_ ((Nat.div_mod_unique positive).symm.trans (and_congr eq_comm eq_comm))
  exact ⟨fun ⟨total, less⟩ => ⟨by rw [Nat.mul_comm]; omega, less⟩,
    fun ⟨total, less⟩ => ⟨by rw [Nat.mul_comm]; omega, less⟩⟩

theorem signedQuotientOf_iff {n d q r : Int} (nonzero : d ≠ 0) :
    SignedQuotientOf n d q r ↔ q = n.tdiv d ∧ r = n.tmod d := by
  rcases lt_or_ge n 0 with negative | positive
  · refine Iff.trans ?_ ((Int.tdiv_tmod_unique' negative.le nonzero).symm.trans (and_congr eq_comm eq_comm))
    rw [Int.mul_comm d q]
    constructor
    · rintro ⟨total, less, below, -⟩
      have := below negative
      omega
    · rintro ⟨total, above, below⟩
      exact ⟨by omega, by omega, fun _ => below, fun positive => absurd negative (Int.not_lt.mpr positive)⟩
  · refine Iff.trans ?_ ((Int.tdiv_tmod_unique positive nonzero).symm.trans (and_congr eq_comm eq_comm))
    rw [Int.mul_comm d q]
    constructor
    · rintro ⟨total, less, -, above⟩
      have := above positive
      omega
    · rintro ⟨total, above, below⟩
      exact ⟨by omega, by omega, fun negative => absurd negative (Int.not_lt.mpr positive), fun _ => above⟩

/-- The one quotient that is no 64-bit number. -/
def Overflows (dividend divisor : BitVec 64) : Prop := dividend = BitVec.intMin 64 ∧ divisor = -1

theorem tdiv_toInt (nonzero : divisor.toInt ≠ 0) (fits : ¬ Overflows dividend divisor) :
    (BitVec.ofInt 64 (dividend.toInt.tdiv divisor.toInt)).toInt = dividend.toInt.tdiv divisor.toInt := by
  have below : dividend.toInt < 2 ^ 63 := dividend.toInt_lt
  have above : -2 ^ 63 ≤ dividend.toInt := dividend.le_toInt
  have size : (dividend.toInt.tdiv divisor.toInt).natAbs = dividend.toInt.natAbs / divisor.toInt.natAbs :=
    Int.natAbs_tdiv ..
  refine BitVec.toInt_ofInt_eq_self (by decide) ?_ ?_
  · have atMost := Nat.div_le_self dividend.toInt.natAbs divisor.toInt.natAbs
    change -2 ^ 63 ≤ _
    omega
  · change _ < 2 ^ 63
    by_contra large
    have atMost := Nat.div_le_self dividend.toInt.natAbs divisor.toInt.natAbs
    have lowest : dividend.toInt = -2 ^ 63 := by omega
    have one : divisor.toInt.natAbs = 1 := by
      by_contra other
      have two : 2 ≤ divisor.toInt.natAbs := by omega
      have half := Nat.div_le_div_left two (by decide) (a := dividend.toInt.natAbs)
      omega
    rcases (by omega : divisor.toInt = 1 ∨ divisor.toInt = -1) with positive | negative
    · rw [positive, Int.tdiv_one] at large
      omega
    · exact fits ⟨BitVec.eq_of_toInt_eq (lowest.trans (by decide)), BitVec.eq_of_toInt_eq (negative.trans (by decide))⟩

theorem tmod_toInt (nonzero : divisor.toInt ≠ 0) :
    (BitVec.ofInt 64 (dividend.toInt.tmod divisor.toInt)).toInt = dividend.toInt.tmod divisor.toInt := by
  have below : dividend.toInt < 2 ^ 63 := dividend.toInt_lt
  have above : -2 ^ 63 ≤ dividend.toInt := dividend.le_toInt
  have divides : SignedQuotientOf dividend.toInt divisor.toInt _ _ := (signedQuotientOf_iff nonzero).mpr ⟨rfl, rfl⟩
  have size : (dividend.toInt.tmod divisor.toInt).natAbs ≤ dividend.toInt.natAbs := by
    rw [Int.natAbs_tmod]
    exact Nat.mod_le _ _
  have negative := divides.negative
  have positive := divides.positive
  refine BitVec.toInt_ofInt_eq_self (by decide) ?_ ?_
  · change -2 ^ 63 ≤ _
    omega
  · change _ < 2 ^ 63
    omega

/-- Both divisions give the one quotient and remainder there are; a signed quotient that overflows wraps. -/
theorem division_correct (nonzero : divisor ≠ 0) :
    (∀ q r, QuotientOf dividend.toNat divisor.toNat q r ↔
      q = (rtlDivideUnsigned64 dividend divisor).quotient.toNat ∧
        r = (rtlDivideUnsigned64 dividend divisor).rem.toNat) ∧
    divideLoop dividend divisor 64 ⟨0, 0⟩ = rtlDivideUnsigned64 dividend divisor ∧
    ∃ q r : Int, (∀ q' r', SignedQuotientOf dividend.toInt divisor.toInt q' r' ↔ q' = q ∧ r' = r) ∧
      (rtlDivideSigned64 dividend divisor).quotient = BitVec.ofInt 64 q ∧
      (rtlDivideSigned64 dividend divisor).rem.toInt = r ∧
      (¬ Overflows dividend divisor → (rtlDivideSigned64 dividend divisor).quotient.toInt = q) := by
  have positive : 0 < divisor.toNat := Nat.pos_of_ne_zero fun zero => nonzero (BitVec.eq_of_toNat_eq zero)
  have signed : divisor.toInt ≠ 0 := fun zero => nonzero (BitVec.eq_of_toInt_eq zero)
  refine ⟨fun q r => ?_, ?_, dividend.toInt.tdiv divisor.toInt, dividend.toInt.tmod divisor.toInt,
    fun q' r' => signedQuotientOf_iff signed, ?_, ?_, fun fits => ?_⟩
  · rw [divideUnsigned_eq nonzero, BitVec.toNat_udiv, BitVec.toNat_umod]
    exact quotientOf_iff positive
  · rw [divideUnsigned_eq nonzero, divideLoop_eq nonzero]
  · rw [divideSigned_eq nonzero]
  · rw [divideSigned_eq nonzero]
    exact tmod_toInt signed
  · rw [divideSigned_eq nonzero]
    exact tdiv_toInt signed fits

theorem division_correct_lowest : QuotientOf (2 ^ 63) (2 ^ 64 - 1) 0 (2 ^ 63) := by
  have nonzero : (-1 : BitVec 64) ≠ 0 := by decide
  have result : QuotientOf (intMin 64).toNat (-1 : BitVec 64).toNat 0 (2 ^ 63) ↔ _ :=
    (division_correct nonzero).1 0 (2 ^ 63)
  rw [divideUnsigned_eq nonzero] at result
  exact result.mpr ⟨by decide, by decide⟩

end Claim
end VeaOS.Rtl
