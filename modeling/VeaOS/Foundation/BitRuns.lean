import Mathlib.Data.BitVec

/-! Runs of a predicate on the places below a bound, and the search for a run of some
length that goes from the end of each run to the end of the next. -/
namespace VeaOS.BitRuns

open List

/-- How many of the places from one on satisfy the predicate without a break. -/
def runLength (bit : Nat → Bool) : Nat → Nat → Nat
  | 0, _ => 0
  | left + 1, i => if bit i then runLength bit left (i + 1) + 1 else 0

section Length
variable {bit : Nat → Bool}

theorem runLength_le : runLength bit left i ≤ left := by
  induction left generalizing i with
  | zero => exact Nat.le_refl _
  | succ left ih =>
    rw [runLength]
    split
    · exact Nat.succ_le_succ ih
    · exact Nat.zero_le _

theorem runLength_holds (before : k < runLength bit left i) : bit (i + k) = true := by
  induction left generalizing i k with
  | zero => exact absurd before (Nat.not_lt_zero _)
  | succ left ih =>
    rw [runLength] at before
    split at before
    · next here =>
        obtain _ | k := k
        · exact here
        · have later := ih (Nat.lt_of_succ_lt_succ before)
          rwa [Nat.add_assoc, Nat.add_comm 1] at later
    · exact absurd before (Nat.not_lt_zero _)

theorem runLength_unique (inside : n ≤ left) (holds : ∀ k < n, bit (i + k) = true)
    (stops : n = left ∨ bit (i + n) = false) : runLength bit left i = n := by
  induction left generalizing i n with
  | zero => exact (Nat.le_zero.mp inside).symm
  | succ left ih =>
    obtain _ | n := n
    · rcases stops with full | stops
      · cases full
      · rw [runLength, if_neg (by simp at stops; simp [stops])]
    · have here : bit i = true := holds 0 (Nat.succ_pos _)
      rw [runLength, if_pos here]
      refine congrArg Nat.succ (ih (Nat.le_of_succ_le_succ inside) (fun k before => ?_) ?_)
      · have later := holds (k + 1) (Nat.succ_lt_succ before)
        rwa [Nat.add_assoc, Nat.add_comm 1]
      · refine stops.imp Nat.succ.inj fun stops => ?_
        rwa [Nat.add_assoc, Nat.add_comm 1]

theorem runLength_stops (short : runLength bit left i < left) : bit (i + runLength bit left i) = false := by
  induction left generalizing i with
  | zero => exact absurd short (Nat.not_lt_zero _)
  | succ left ih =>
    rw [runLength] at short ⊢
    split at short
    · next here =>
        have later := ih (Nat.lt_of_succ_lt_succ short)
        rw [if_pos here]
        rwa [Nat.add_assoc, Nat.add_comm 1] at later
    · next here =>
        rw [if_neg here]
        simpa using here

theorem le_runLength : n ≤ runLength bit left i ↔ n ≤ left ∧ ∀ k < n, bit (i + k) = true := by
  constructor
  · exact fun short => ⟨short.trans runLength_le, fun k before => runLength_holds (before.trans_le short)⟩
  · rintro ⟨inside, holds⟩
    by_contra longer
    rw [not_le] at longer
    have stops := runLength_stops (longer.trans_le inside)
    rw [holds _ longer] at stops
    cases stops

end Length

section Search
variable (more bit : Nat → Bool) (size n : Nat)

/-- The places of a run of `n`. -/
structure Window (a : Nat) : Prop where
  inside : a + n ≤ size
  holds : ∀ k < n, bit (a + k) = true

/-- Where the next run from a place on starts. -/
def runStart (p : Nat) : Nat := p + runLength (fun i => !bit i) (size - p) p

def nextRun (p : Nat) : Nat := runLength bit (size - runStart bit size p) (runStart bit size p)

def runEnd (p : Nat) : Nat := runStart bit size p + nextRun bit size p

/-- The search from a place on, as long as `more` says: the start of a run that is long enough,
and `none` inside when it came to an end without one. -/
def pass : Nat → Nat → Option (Option Nat)
  | 0, _ => none
  | fuel + 1, p =>
    if more p then
      if n ≤ nextRun bit size p then some (some (runStart bit size p)) else pass fuel (runEnd bit size p)
    else some none

/-- The places at which the search looks whether to go on. -/
inductive Reached (start : Nat) : Nat → Prop where
  | start : Reached start start
  | next (reached : Reached start p) (goes : more p = true) (short : nextRun bit size p < n) :
      Reached start (runEnd bit size p)

/-- The search finds a run that is long enough. -/
def Hits (start : Nat) : Prop :=
  ∃ p, Reached more bit size n start p ∧ more p = true ∧ n ≤ nextRun bit size p

def Ends (start : Nat) : Prop := ∃ p, Reached more bit size n start p ∧ more p = false

variable {more bit size n}

theorem le_runStart : p ≤ runStart bit size p := Nat.le_add_right _ _

theorem runStart_le (inside : p ≤ size) : runStart bit size p ≤ size := by
  have few : runLength (fun i => !bit i) (size - p) p ≤ size - p := runLength_le
  rw [runStart]
  omega

theorem runEnd_le (inside : p ≤ size) : runEnd bit size p ≤ size := by
  have few : nextRun bit size p ≤ size - runStart bit size p := runLength_le
  have start : runStart bit size p ≤ size := runStart_le inside
  rw [runEnd]
  omega

theorem le_runEnd : p ≤ runEnd bit size p := le_runStart.trans (Nat.le_add_right _ _)

theorem runStart_bit (inside : runStart bit size p < size) : bit (runStart bit size p) = true := by
  have short : runLength (fun i => !bit i) (size - p) p < size - p := by
    rw [runStart] at inside
    omega
  have stops := runLength_stops short
  simpa [runStart] using stops

theorem runEnd_bit (inside : runEnd bit size p < size) : bit (runEnd bit size p) = false := by
  have short : runLength bit (size - runStart bit size p) (runStart bit size p) < size - runStart bit size p := by
    rw [runEnd, nextRun] at inside
    omega
  exact runLength_stops short

theorem lt_runEnd (inside : p < size) : p < runEnd bit size p := by
  have start : runStart bit size p ≤ size := runStart_le inside.le
  rcases start.lt_or_eq with before | atEnd
  · have positive : 1 ≤ nextRun bit size p := by
      refine le_runLength.mpr ⟨by omega, fun k first => ?_⟩
      obtain rfl : k = 0 := by omega
      exact runStart_bit before
    have : p ≤ runStart bit size p := le_runStart
    rw [runEnd]
    omega
  · rw [runEnd, atEnd]
    omega

theorem window_runStart (inside : p ≤ size) (long : n ≤ nextRun bit size p) :
    Window bit size n (runStart bit size p) := by
  obtain ⟨fits, holds⟩ := le_runLength.mp long
  have start : runStart bit size p ≤ size := runStart_le inside
  exact ⟨by omega, holds⟩

theorem Window.runEnd_le (window : Window bit size n a) (positive : 0 < n) (behind : p ≤ a)
    (short : nextRun bit size p < n) : runEnd bit size p ≤ a := by
  have start : runStart bit size p ≤ a := by
    by_contra before
    have gap : bit (p + (a - p)) = false := by
      have within : a - p < runLength (fun i => !bit i) (size - p) p := by
        rw [runStart] at before
        omega
      have clear := runLength_holds within
      simpa using clear
    have first : bit a = true := window.holds 0 positive
    rw [Nat.add_sub_of_le behind, first] at gap
    cases gap
  by_contra before
  have inside := window.inside
  by_cases within : a + n ≤ runEnd bit size p
  · rw [runEnd] at before within
    omega
  · have stops : bit (runEnd bit size p) = false := runEnd_bit (by omega)
    have covered := window.holds (runEnd bit size p - a) (by omega)
    rw [Nat.add_sub_of_le (by omega), stops] at covered
    cases covered

namespace Reached
variable {start : Nat}

theorem le (reached : Reached more bit size n start p) (inside : start ≤ size) : p ≤ size := by
  induction reached with
  | start => exact inside
  | next _ _ _ ih => exact runEnd_le ih

theorem le_window (reached : Reached more bit size n start p) (window : Window bit size n a) (positive : 0 < n)
    (behind : start ≤ a) : p ≤ a := by
  induction reached with
  | start => exact behind
  | next _ _ short ih => exact window.runEnd_le positive ih short

theorem place (reached : Reached more bit size n start p) (inside : start ≤ size) :
    p = start ∨ p = size ∨ bit p = false := by
  cases reached with
  | start => exact .inl rfl
  | @next p reached =>
    have bounded : runEnd bit size p ≤ size := runEnd_le (reached.le inside)
    rcases bounded.lt_or_eq with before | atEnd
    · exact .inr (.inr (runEnd_bit before))
    · exact .inr (.inl atEnd)

end Reached

theorem pass_ends (inside : start ≤ size) (stops : Reached more bit size n start size → more size = false)
    (reached : Reached more bit size n start p) : ∃ fuel result, pass more bit size n fuel p = some result ∧
      match result with
      | some a => Window bit size n a
      | none => Ends more bit size n start := by
  obtain ⟨left, far⟩ : ∃ left, size - p ≤ left := ⟨_, Nat.le_refl _⟩
  induction left generalizing p with
  | zero =>
    obtain rfl : p = size := by have := reached.le inside; omega
    exact ⟨1, none, by rw [pass, stops reached]; rfl, p, reached, stops reached⟩
  | succ left ih =>
    cases goes : more p with
    | false => exact ⟨1, none, by rw [pass, goes]; rfl, p, reached, goes⟩
    | true =>
      by_cases long : n ≤ nextRun bit size p
      · exact ⟨1, some (runStart bit size p), by rw [pass, goes, if_pos rfl, if_pos long],
          window_runStart (reached.le inside) long⟩
      · have next := Reached.next reached goes (not_le.mp long)
        have closer : size - runEnd bit size p ≤ left := by
          rcases (reached.le inside).lt_or_eq with before | rfl
          · have : p < runEnd bit size p := lt_runEnd before
            omega
          · rw [stops reached] at goes
            cases goes
        obtain ⟨fuel, result, ended, what⟩ := ih next closer
        exact ⟨fuel + 1, result, by rw [pass, goes, if_pos rfl, if_neg long, ended], what⟩

theorem pass_more (ended : pass more bit size n fuel p = some result) (extra : Nat) :
    pass more bit size n (fuel + extra) p = some result := by
  induction fuel generalizing p with
  | zero => cases ended
  | succ fuel ih =>
    rw [pass] at ended
    rw [Nat.succ_add, pass]
    split at ended
    · next goes =>
        rw [if_pos goes]
        split at ended
        · next long => rw [if_pos long, ended]
        · next short =>
            rw [if_neg short]
            exact ih ended
    · next stops => rw [if_neg stops, ended]

theorem hits_of_pass (reached : Reached more bit size n start p)
    (found : pass more bit size n fuel p = some (some a)) : Hits more bit size n start := by
  induction fuel generalizing p with
  | zero => cases found
  | succ fuel ih =>
    rw [pass] at found
    split at found
    · next goes =>
        split at found
        · next long => exact ⟨p, reached, goes, long⟩
        · next short => exact ih (.next reached goes (not_le.mp short)) found
    · cases found

theorem pass_along {Q : Option (Option Nat) → Prop} (reached : Reached more bit size n start p)
    (unfinished : Q none) (there : ∀ fuel, Q (pass more bit size n fuel p)) (fuel : Nat) : Q (pass more bit size n fuel start) := by
  induction reached generalizing fuel with
  | start => exact there fuel
  | next _ goes short ih =>
    refine ih (fun fuel => ?_) fuel
    obtain _ | fuel := fuel
    · exact unfinished
    · rw [pass, if_pos goes, if_neg (not_le.mpr short)]
      exact there fuel

theorem Ends.not_found (ends : Ends more bit size n start) (fuel : Nat) :
    pass more bit size n fuel start ≠ some (some a) := by
  obtain ⟨p, reached, stops⟩ := ends
  refine pass_along (Q := (· ≠ some (some a))) reached (nomatch ·) (fun fuel => ?_) fuel
  obtain _ | fuel := fuel
  · exact (nomatch ·)
  · rw [pass, stops]
    exact (nomatch ·)

theorem pass_stuck (inside : p ≤ size) (goes : ∀ q, p ≤ q → q ≤ size → more q = true)
    (nothing : ∀ a, p ≤ a → ¬ Window bit size n a) (fuel : Nat) : pass more bit size n fuel p = none := by
  induction fuel generalizing p with
  | zero => rfl
  | succ fuel ih =>
    have short : ¬ n ≤ nextRun bit size p := fun long => nothing _ le_runStart (window_runStart inside long)
    rw [pass, if_pos (goes p (Nat.le_refl _) inside), if_neg short]
    exact ih (runEnd_le inside) (fun q later => goes q (le_runEnd.trans later)) fun a later =>
      nothing a (le_runEnd.trans later)

end Search

section Maximal
variable (bit : Nat → Bool) (size : Nat)

def startsRun (i : Nat) : Bool := bit i && (i == 0 || !bit (i - 1))

/-- The starts and the lengths of the maximal runs that start at a place or behind it. -/
def runsFrom (p : Nat) : List (Nat × Nat) :=
  ((List.range' p (size - p)).filter (startsRun bit)).map fun i => (i, runLength bit (size - i) i)

def maximalRuns : List (Nat × Nat) := runsFrom bit size 0

structure Boundary (p : Nat) : Prop where
  inside : p ≤ size
  apart : p = 0 ∨ p = size ∨ bit p = false

variable {bit size}

theorem Boundary.runEnd (inside : p ≤ size) : Boundary bit size (runEnd bit size p) := by
  refine ⟨runEnd_le inside, .inr ?_⟩
  rcases (runEnd_le inside).lt_or_eq with before | atEnd
  · exact .inr (runEnd_bit before)
  · exact .inl atEnd

theorem runStart_gap (later : p ≤ i) (before : i < runStart bit size p) : bit i = false := by
  have within : i - p < runLength (fun i => !bit i) (size - p) p := by
    rw [runStart] at before
    omega
  have clear := runLength_holds within
  rw [Nat.add_sub_of_le later] at clear
  simpa using clear

theorem nextRun_holds (later : runStart bit size p ≤ i) (before : i < runEnd bit size p) : bit i = true := by
  have within : i - runStart bit size p < runLength bit (size - runStart bit size p) (runStart bit size p) := by
    rw [BitRuns.runEnd, nextRun] at before
    omega
  have holds := runLength_holds within
  rwa [Nat.add_sub_of_le later] at holds

theorem nextRun_eq_zero (inside : p ≤ size) : nextRun bit size p = 0 ↔ runStart bit size p = size := by
  have start : runStart bit size p ≤ size := runStart_le inside
  constructor
  · intro zero
    by_contra other
    have positive : 1 ≤ nextRun bit size p := by
      refine le_runLength.mpr ⟨by omega, fun k first => ?_⟩
      obtain rfl : k = 0 := by omega
      exact runStart_bit (by omega)
    omega
  · intro atEnd
    have few : nextRun bit size p ≤ size - runStart bit size p := runLength_le
    omega

section Within
variable (inside : p ≤ size) (later : p ≤ f) (before : f < runEnd bit size p)
include inside later before

theorem runStart_within : runStart bit size f = max f (runStart bit size p) := by
  have start : runStart bit size p ≤ size := runStart_le inside
  have last : runEnd bit size p ≤ size := runEnd_le inside
  by_cases gap : f ≤ runStart bit size p
  · have length : runLength (fun i => !bit i) (size - f) f = runStart bit size p - f := by
      refine runLength_unique (by omega) (fun k short => ?_) ?_
      · have before : f + k < runStart bit size p := by omega
        have unset : bit (f + k) = false := runStart_gap (Nat.le_add_right_of_le later) before
        rw [unset, Bool.not_false]
      · rcases start.lt_or_eq with less | atEnd
        · right
          rw [Nat.add_sub_of_le gap, runStart_bit less, Bool.not_true]
        · exact .inl (by omega)
    rw [runStart, length]
    omega
  · have length : runLength (fun i => !bit i) (size - f) f = 0 := by
      refine runLength_unique (Nat.zero_le _) (fun k short => absurd short (Nat.not_lt_zero _)) (.inr ?_)
      have set : bit f = true := nextRun_holds (Nat.le_of_not_le gap) before
      rw [Nat.add_zero, set, Bool.not_true]
    rw [runStart, length]
    omega

theorem nextRun_within : nextRun bit size f = runEnd bit size p - max f (runStart bit size p) := by
  have last : runEnd bit size p ≤ size := runEnd_le inside
  have long : runStart bit size p ≤ runEnd bit size p := Nat.le_add_right _ _
  rw [nextRun, runStart_within inside later before]
  have first : f ≤ max f (runStart bit size p) := Nat.le_max_left _ _
  have second : runStart bit size p ≤ max f (runStart bit size p) := Nat.le_max_right _ _
  have below : max f (runStart bit size p) ≤ runEnd bit size p := Nat.max_le.mpr ⟨before.le, long⟩
  refine runLength_unique (by omega) (fun k short => nextRun_holds (second.trans (Nat.le_add_right _ _)) (by omega)) ?_
  rw [Nat.add_sub_of_le below]
  rcases last.lt_or_eq with less | atEnd
  · exact .inr (runEnd_bit less)
  · exact .inl (by omega)

end Within

theorem startsRun_split {p m q : Nat} (first : p ≤ m) (second : m ≤ q) :
    (range' p (q - p)).filter (startsRun bit) =
      (range' p (m - p)).filter (startsRun bit) ++ (range' m (q - m)).filter (startsRun bit) := by
  have whole := range'_append_1 (s := p) (m := m - p) (n := q - m)
  rw [Nat.add_sub_of_le first, show m - p + (q - m) = q - p by omega] at whole
  rw [← whole, filter_append]

theorem runsFrom_eq (boundary : Boundary bit size p) : runsFrom bit size p =
    if nextRun bit size p = 0 then []
    else (runStart bit size p, nextRun bit size p) :: runsFrom bit size (runEnd bit size p) := by
  have inside := boundary.inside
  have start : runStart bit size p ≤ size := runStart_le inside
  have behind : p ≤ runStart bit size p := le_runStart
  have gap : (range' p (runStart bit size p - p)).filter (startsRun bit) = [] := by
    refine filter_eq_nil_iff.mpr fun i member => ?_
    rw [mem_range'_1] at member
    have before : i < runStart bit size p := by omega
    simp [startsRun, runStart_gap member.1 before]
  rw [runsFrom, startsRun_split behind start, gap, nil_append]
  split
  · next zero => simp [(nextRun_eq_zero inside).mp zero]
  · next positive =>
      have before : runStart bit size p < size :=
        lt_of_le_of_ne start fun atEnd => positive ((nextRun_eq_zero inside).mpr atEnd)
      have last : runEnd bit size p ≤ size := runEnd_le inside
      have end_ : runEnd bit size p = runStart bit size p + nextRun bit size p := rfl
      have opens : startsRun bit (runStart bit size p) = true := by
        rw [startsRun, runStart_bit before, Bool.true_and, Bool.or_eq_true, beq_iff_eq]
        by_cases zero : runStart bit size p = 0
        · exact .inl zero
        · right
          rcases behind.lt_or_eq with gap | same
          · have previous : runStart bit size p - 1 < runStart bit size p := by omega
            rw [runStart_gap (Nat.le_sub_one_of_lt gap) previous, Bool.not_false]
          · rcases boundary.apart with rfl | rfl | unset
            · exact absurd same.symm zero
            · omega
            · rw [same, runStart_bit before] at unset
              cases unset
      have inner : (range' (runStart bit size p + 1) (runEnd bit size p - (runStart bit size p + 1))).filter
          (startsRun bit) = [] := by
        refine filter_eq_nil_iff.mpr fun i member => ?_
        rw [mem_range'_1] at member
        have before : i - 1 < runEnd bit size p := by omega
        have previous : bit (i - 1) = true := nextRun_holds (Nat.le_sub_one_of_lt member.1) before
        simp [startsRun, previous, show i ≠ 0 by omega]
      have head : range' (runStart bit size p) (size - runStart bit size p) =
          runStart bit size p :: range' (runStart bit size p + 1) (size - (runStart bit size p + 1)) := by
        rw [show size - runStart bit size p = size - (runStart bit size p + 1) + 1 by omega, range'_succ]
      rw [head, filter_cons_of_pos opens, startsRun_split (by omega) last, inner, nil_append]
      rfl

theorem maximalRuns_nodup : (maximalRuns bit size).Nodup := by
  refine Nodup.map (fun i j same => congrArg Prod.fst same) (Nodup.filter _ ?_)
  exact nodup_range'

end Maximal
end VeaOS.BitRuns
