import Mathlib.Data.List.DropRight
import Mathlib.Data.List.Nodup

/-! Lists with two classes of entries, the early ones before the late ones and
each class in its own order. -/
namespace VeaOS.Foundation
open List
variable {α : Type*} {late : α → Bool} {l : List α}

def stablePartition (late : α → Bool) (l : List α) : List α :=
  (l.filter fun x => !late x) ++ l.filter late

@[simp] theorem mem_stablePartition : x ∈ stablePartition late l ↔ x ∈ l := by
  simp only [stablePartition, mem_append, mem_filter]
  cases late x <;> simp

theorem stablePartition_perm : (stablePartition late l).Perm l :=
  perm_append_comm.trans (filter_append_perm late l)

theorem stablePartition_snoc_late (isLate : late x = true) :
    stablePartition late (l ++ [x]) = stablePartition late l ++ [x] := by
  simp [stablePartition, isLate]

theorem stablePartition_snoc_early (isEarly : late x = false) :
    stablePartition late (l ++ [x]) =
      (stablePartition late l).rdropWhile late ++ x :: (stablePartition late l).rtakeWhile late := by
  have early : ∀ y ∈ (l.filter fun x => !late x).reverse, late y = false := by
    intro y member
    simpa using (mem_filter.mp (mem_reverse.mp member)).2
  have all : ∀ y ∈ (l.filter late).reverse, late y = true := by
    intro y member
    exact (mem_filter.mp (mem_reverse.mp member)).2
  have stops : ((l.filter fun x => !late x).reverse.dropWhile late) =
      (l.filter fun x => !late x).reverse := by
    cases first : (l.filter fun x => !late x).reverse with
    | nil => rfl
    | cons y rest => exact dropWhile_cons_of_neg (by simp [early y (first ▸ mem_cons_self)])
  have takes : ((l.filter fun x => !late x).reverse.takeWhile late) = [] := by
    cases first : (l.filter fun x => !late x).reverse with
    | nil => rfl
    | cons y rest => exact takeWhile_cons_of_neg (by simp [early y (first ▸ mem_cons_self)])
  have dropped : (stablePartition late l).rdropWhile late = l.filter fun x => !late x := by
    rw [rdropWhile, stablePartition, reverse_append, dropWhile_append_of_pos all, stops,
      reverse_reverse]
  have taken : (stablePartition late l).rtakeWhile late = l.filter late := by
    rw [rtakeWhile, stablePartition, reverse_append, takeWhile_append_of_pos all, takes,
      append_nil, reverse_reverse]
  rw [dropped, taken]
  simp [stablePartition, isEarly]

theorem stablePartition_erase [DecidableEq α] (distinct : l.Nodup) (x : α) :
    (stablePartition late l).erase x = stablePartition late (l.erase x) := by
  have kept : (stablePartition late l).Nodup := stablePartition_perm.nodup_iff.mpr distinct
  rw [kept.erase_eq_filter, distinct.erase_eq_filter, stablePartition, stablePartition, filter_append]
  congr 1
  · rw [filter_filter, filter_filter]
    exact filter_congr fun y _ => Bool.and_comm ..
  · rw [filter_filter, filter_filter]
    exact filter_congr fun y _ => Bool.and_comm ..

theorem stablePartition_head (head : (stablePartition late l).head? = some x) (isLate : late x = true) :
    ∀ y ∈ l, late y = true := by
  intro y member
  by_contra early
  have inside : y ∈ l.filter fun x => !late x := mem_filter.mpr ⟨member, by simpa using early⟩
  cases first : l.filter fun x => !late x with
  | nil =>
    rw [first] at inside
    cases inside
  | cons z rest =>
    rw [stablePartition, first, cons_append, head?_cons] at head
    obtain rfl := Option.some.inj head
    have isEarly := (mem_filter.mp (first ▸ mem_cons_self : z ∈ l.filter fun x => !late x)).2
    simp [isLate] at isEarly

end VeaOS.Foundation
