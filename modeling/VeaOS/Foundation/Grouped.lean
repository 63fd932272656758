import Mathlib.Data.List.Basic

/-! Lists in which equal elements stand together. -/
namespace VeaOS.Foundation
open List
variable {α : Type*} {l l' back : List α} {a : α}

/-- Nothing stands between two equal elements but more of them. -/
def Grouped (l : List α) : Prop := ∀ a b, [a, b, a].Sublist l → b = a

namespace Grouped

theorem nil : Grouped ([] : List α) := fun _ _ inside => by cases inside

theorem sublist (grouped : Grouped l) (inside : l'.Sublist l) : Grouped l' :=
  fun a b more => grouped a b (more.trans inside)

theorem append (grouped : Grouped l) (absent : a ∉ l) (own : ∀ b ∈ back, b = a) : Grouped (l ++ back) := by
  intro x y inside
  obtain ⟨front, rest, split, before, behind⟩ := sublist_append_iff.mp inside
  rcases eq_nil_or_concat rest with rfl | ⟨init, last, rfl⟩
  · rw [append_nil] at split
    exact grouped x y (split ▸ before)
  · rw [concat_eq_append] at split behind
    have ends : x = last := by
      have same := congrArg getLast? split
      rw [← append_assoc, getLast?_concat] at same
      exact Option.some.inj same
    have new : x = a := own x (behind.subset (by simp [ends]))
    cases front with
    | nil =>
      rw [nil_append] at split
      exact (own y (behind.subset (by simp [← split]))).trans new.symm
    | cons z front =>
      have first : x = z := (cons.inj split).1
      exact absurd (before.subset (by simp [← new, first])) absent

theorem next (grouped : Grouped (l ++ a :: l')) (again : a ∈ l') : ∃ more, l' = a :: more := by
  cases l' with
  | nil => cases again
  | cons b more =>
    rcases mem_cons.mp again with rfl | behind
    · exact ⟨more, rfl⟩
    · have inside : [a, b, a].Sublist (l ++ a :: b :: more) :=
        Sublist.trans (((singleton_sublist.mpr behind).cons_cons b).cons_cons a)
          (sublist_append_right l _)
      exact ⟨more, by rw [grouped a b inside]⟩

end Grouped
end VeaOS.Foundation
