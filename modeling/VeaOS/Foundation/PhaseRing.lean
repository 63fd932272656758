import Mathlib.Data.Nat.Init
import Mathlib.Logic.Function.Basic

/-! Rings of `depth` slots that are filled in turn, the `n`-th entry in slot `n % depth`.
An entry may carry a bit that flips with every lap, so that a reader tells an entry of
this lap from what the last lap left in the slot. -/
namespace VeaOS.Foundation
open Function
variable {E : Type*} {depth n m low high posted head : Nat}

/-- The bit of an entry: set on the first lap. -/
def lapBit (depth n : Nat) : Bool := n / depth % 2 = 0

theorem slot_succ : (n % depth + 1) % depth = (n + 1) % depth := Nat.mod_add_mod n depth 1

theorem slot_ne (before : m < n) (near : n < m + depth) : n % depth ≠ m % depth := by
  intro same
  have back := Nat.sub_mod_eq_zero_of_mod_eq same
  rw [Nat.mod_eq_of_lt (by omega)] at back
  omega

theorem lapBit_succ : lapBit depth (n + 1) =
    if (n + 1) % depth = 0 then !lapBit depth n else lapBit depth n := by
  have split : (n + 1) / depth = n / depth + if depth ∣ n + 1 then 1 else 0 := Nat.succ_div
  simp only [lapBit]
  by_cases wraps : depth ∣ n + 1
  · rw [if_pos wraps] at split
    rw [if_pos (Nat.mod_eq_zero_of_dvd wraps), split]
    grind
  · rw [if_neg wraps] at split
    rw [if_neg fun zero => wraps (Nat.dvd_of_mod_eq_zero zero), split, Nat.add_zero]

/-- The entries from `low` on and before `high` are in their slots. -/
def Window (depth : Nat) (slot : Nat → E) (holds : Nat → E → Prop) (low high : Nat) : Prop :=
  ∀ n, low ≤ n → n < high → holds n (slot (n % depth))

namespace Window
variable {slot : Nat → E} {holds holds' : Nat → E → Prop} {e : E}

theorem drop (window : Window depth slot holds low high) (later : low ≤ low') : Window depth slot holds low' high :=
  fun n after before => window n (Nat.le_trans later after) before

theorem mono (window : Window depth slot holds low high)
    (weaker : ∀ n e, n < high → holds n e → holds' n e) : Window depth slot holds' low high :=
  fun n after before => weaker n _ before (window n after before)

theorem push (window : Window depth slot holds low high) (room : high < low + depth)
    (kept : ∀ n e, n < high → holds n e → holds' n e) (written : holds' high e) :
    Window depth (update slot (high % depth) e) holds' low (high + 1) := by
  intro n after before
  by_cases last : n = high
  · rw [last, update_self]
    exact written
  · rw [update_of_ne (slot_ne (by omega) (by omega)).symm]
    exact kept n _ (by omega) (window n after (by omega))

end Window

/-- Which bits the slots carry once `posted` entries were written. -/
def PhaseMarks (depth : Nat) (bit : Nat → Bool) (posted : Nat) : Prop :=
  ∀ k < depth, bit k = if k < posted % depth then lapBit depth posted else !lapBit depth posted

namespace PhaseMarks
variable {bit : Nat → Bool}

theorem blank (clear : ∀ k < depth, bit k = false) : PhaseMarks depth bit 0 := fun k small => by
  rw [clear k small, Nat.zero_mod, if_neg (Nat.not_lt_zero k), lapBit, Nat.zero_div]
  rfl

theorem push (marks : PhaseMarks depth bit posted) :
    PhaseMarks depth (update bit (posted % depth) (lapBit depth posted)) (posted + 1) := by
  intro k small
  have positive : 0 < depth := by omega
  have inside := Nat.mod_lt posted positive
  have before := marks k small
  rw [lapBit_succ, ← slot_succ]
  by_cases wraps : posted % depth + 1 = depth
  · rw [wraps, Nat.mod_self, if_pos rfl, if_neg (Nat.not_lt_zero k), Bool.not_not]
    by_cases same : k = posted % depth
    · rw [same, update_self]
    · rw [update_of_ne same, before, if_pos (by omega)]
  · have next : (posted % depth + 1) % depth = posted % depth + 1 := Nat.mod_eq_of_lt (by omega)
    rw [next, if_neg (Nat.succ_ne_zero _)]
    by_cases same : k = posted % depth
    · rw [same, update_self, if_pos (Nat.lt_succ_self _)]
    · rw [update_of_ne same, before]
      grind

theorem expected_iff (marks : PhaseMarks depth bit posted) (positive : 0 < depth) (behind : head ≤ posted)
    (near : posted ≤ head + depth) : bit (head % depth) = lapBit depth head ↔ head < posted := by
  have low := Nat.div_le_div_right (c := depth) behind
  have high := Nat.div_le_div_right (c := depth) near
  rw [Nat.add_div_right head positive] at high
  have head_split := Nat.div_add_mod head depth
  have posted_split := Nat.div_add_mod posted depth
  have inside := Nat.mod_lt head positive
  rw [marks _ inside]
  rcases (by omega : posted / depth = head / depth ∨ posted / depth = head / depth + 1) with same | next
  · rw [same] at posted_split
    have bits : lapBit depth posted = lapBit depth head := by rw [lapBit, same, lapBit]
    rw [bits]
    by_cases before : head % depth < posted % depth
    · exact iff_of_true (if_pos before) (by omega)
    · refine iff_of_false ?_ (by omega)
      rw [if_neg before]
      simp
  · rw [next, Nat.mul_add, Nat.mul_one] at posted_split
    have bits : lapBit depth posted = !lapBit depth head := by
      rw [lapBit, next, lapBit]
      grind
    rw [bits, if_neg (by omega), Bool.not_not]
    exact iff_of_true rfl (by have := Nat.mod_lt posted positive; omega)

end PhaseMarks
end VeaOS.Foundation
