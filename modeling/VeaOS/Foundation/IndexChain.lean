import Mathlib.Data.List.Nodup

/-! Singly linked lists threaded through an array of indices, with index zero
as the terminator. -/
namespace VeaOS.Foundation

/-- The indices met from `i` on along `next`, up to the terminator. -/
def IndexChain (next : Nat → Nat) : Nat → List Nat → Prop
  | i, [] => i = 0
  | i, x :: xs => i = x ∧ x ≠ 0 ∧ IndexChain next (next x) xs

namespace IndexChain
variable {next next' : Nat → Nat}

theorem nil_iff (chain : IndexChain next i xs) : i = 0 ↔ xs = [] := by
  cases xs with
  | nil => exact ⟨fun _ => rfl, fun _ => chain⟩
  | cons x xs =>
    obtain ⟨rfl, nonzero, _⟩ := chain
    exact ⟨fun zero => absurd zero nonzero, fun empty => by cases empty⟩

theorem congr (chain : IndexChain next i xs) (same : ∀ x ∈ xs, next' x = next x) :
    IndexChain next' i xs := by
  induction xs generalizing i with
  | nil => exact chain
  | cons y ys ih =>
    obtain ⟨rfl, nonzero, rest⟩ := chain
    refine ⟨rfl, nonzero, ?_⟩
    rw [same i List.mem_cons_self]
    exact ih rest fun x member => same x (List.mem_cons_of_mem i member)

theorem push (chain : IndexChain next i xs) (nonzero : x ≠ 0) (fresh : x ∉ xs)
    (link : next' x = i) (same : ∀ y, y ≠ x → next' y = next y) :
    IndexChain next' x (x :: xs) := by
  refine ⟨rfl, nonzero, ?_⟩
  rw [link]
  apply chain.congr
  rintro y member
  apply same
  rintro rfl
  exact fresh member

theorem range' (ascending : ∀ i, first ≤ i → i + 1 < first + size → next i = i + 1)
    (last : 0 < size → next (first + size - 1) = 0) (positive : 0 < first) :
    IndexChain next (if size = 0 then 0 else first) (List.range' first size) := by
  induction size generalizing first with
  | zero => rfl
  | succ size ih =>
    rw [List.range'_succ]
    refine ⟨if_neg (Nat.succ_ne_zero size), by omega, ?_⟩
    have rest : IndexChain next (if size = 0 then 0 else first + 1) (List.range' (first + 1) size) := ih
      (fun i above below => ascending i (by omega) (by omega))
      (fun some => by
        rw [show first + 1 + size - 1 = first + (size + 1) - 1 by omega]
        exact last (Nat.succ_pos size))
      (Nat.succ_pos first)
    have link : next first = if size = 0 then 0 else first + 1 := by
      split
      next none =>
        subst none
        exact last (Nat.succ_pos 0)
      next some => exact ascending first (Nat.le_refl first) (by omega)
    rw [link]
    exact rest

end IndexChain
end VeaOS.Foundation
