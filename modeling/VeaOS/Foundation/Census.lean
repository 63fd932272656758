import Mathlib.Data.Nat.Count
import Mathlib.Data.Set.Card

/-! How many members of a finite population are at a place of some kind, and how
the number changes when one of them moves. -/
namespace VeaOS.Foundation
open Function
variable {T P : Type} [Finite T]

noncomputable def census (kind : P → Bool) (place : T → P) : Nat :=
  {t | kind (place t) = true}.ncard

theorem census_pos {kind : P → Bool} {place : T → P} :
    0 < census kind place ↔ ∃ t, kind (place t) = true := by
  rw [census, Set.ncard_pos]
  rfl

theorem census_eq_zero {kind : P → Bool} {place : T → P} :
    census kind place = 0 ↔ ∀ t, kind (place t) = false := by
  have positive : 0 < census kind place ↔ ∃ t, kind (place t) = true := census_pos
  constructor
  · intro none t
    apply Bool.eq_false_of_not_eq_true
    intro counted
    exact absurd (positive.mpr ⟨t, counted⟩) (by omega)
  · intro none
    apply Nat.eq_zero_of_not_pos
    intro some
    obtain ⟨t, counted⟩ := positive.mp some
    exact absurd counted (by rw [none t]; exact Bool.false_ne_true)

theorem census_unique {kind : P → Bool} {place : T → P} (few : census kind place ≤ 1)
    (first : kind (place s) = true) (second : kind (place t) = true) : s = t :=
  (Set.ncard_le_one_iff (Set.toFinite _)).mp few first second

theorem census_le {kind : P → Bool} {place : T → P} : census kind place ≤ Nat.card T :=
  Set.ncard_le_card _

theorem census_without (kind : P → Bool) (place : T → P) (t : T) :
    census kind place = {x | x ≠ t ∧ kind (place x) = true}.ncard + (kind (place t)).toNat := by
  cases counted : kind (place t) with
  | true =>
    have outside : t ∉ {x | x ≠ t ∧ kind (place x) = true} := fun member => member.1 rfl
    rw [Bool.toNat_true, ← Set.ncard_insert_of_notMem outside, census]
    congr 1
    ext x
    by_cases same : x = t
    · simp [same, counted]
    · simp [same]
  | false =>
    rw [Bool.toNat_false, Nat.add_zero, census]
    congr 1
    ext x
    by_cases same : x = t
    · simp [same, counted]
    · simp [same]

theorem census_update [DecidableEq T] (kind : P → Bool) (place : T → P) (t : T) (p : P) :
    census kind (update place t p) + (kind (place t)).toNat =
      census kind place + (kind p).toNat := by
  have others : {x | x ≠ t ∧ kind (update place t p x) = true} =
      {x | x ≠ t ∧ kind (place x) = true} := by
    ext x
    apply and_congr_right
    intro other
    rw [update_of_ne other]
  rw [census_without kind (update place t p) t, census_without kind place t, others,
    update_self]
  omega

omit [Finite T] in
theorem count_update_outside (kind : P → Bool) (place : Nat → P) (outside : n ≤ a) (p : P) :
    Nat.count (fun i => kind (update place a p i)) n = Nat.count (fun i => kind (place i)) n := by
  induction n with
  | zero => rfl
  | succ n ih =>
    rw [Nat.count_succ, Nat.count_succ, ih (by omega), update_of_ne (by omega)]

omit [Finite T] in
theorem count_update (kind : P → Bool) (place : Nat → P) (inside : a < n) (p : P) :
    Nat.count (fun i => kind (update place a p i)) n + (kind (place a)).toNat =
      Nat.count (fun i => kind (place i)) n + (kind p).toNat := by
  induction n with
  | zero => exact absurd inside (Nat.not_lt_zero a)
  | succ n ih =>
    rw [Nat.count_succ, Nat.count_succ]
    by_cases last : a = n
    · subst a
      rw [count_update_outside kind place (Nat.le_refl n) p, update_self]
      cases kind p <;> cases kind (place n) <;> simp
    · have before := ih (by omega)
      rw [update_of_ne (Ne.symm last)]
      omega

end VeaOS.Foundation
