import Mathlib.Data.List.Nodup
import Mathlib.Data.List.Induction

/-! Trees whose places have names, and walks along the names. -/
namespace VeaOS.Foundation
variable {κ ν : Type}

inductive Under (children : κ → List κ) (root : κ) : κ → Prop
  | root : Under children root root
  | child (above : Under children root k) (member : c ∈ children k) : Under children root c

/-- A tree in which each place has one parent, and other names than its siblings. -/
structure NamedTree (κ ν : Type) where
  root : κ
  children : κ → List κ
  name : κ → ν
  parent : κ → κ
  parent_eq : ∀ k, Under children root k → ∀ c ∈ children k, parent c = k
  root_alone : ∀ k, Under children root k → root ∉ children k
  distinct : ∀ k, Under children root k → ((children k).map name).Nodup

namespace NamedTree
variable [DecidableEq ν] {T : NamedTree κ ν} {k k' c : κ} {names names' : List ν} {n : ν}

def Holds (T : NamedTree κ ν) (k : κ) : Prop := Under T.children T.root k

def child (T : NamedTree κ ν) (k : κ) (n : ν) : Option κ := (T.children k).find? fun c => T.name c = n

def walk (T : NamedTree κ ν) (k : κ) : List ν → Option κ
  | [] => some k
  | n :: rest => (T.child k n).bind (T.walk · rest)

theorem walk_append : T.walk k (names ++ names') = (T.walk k names).bind (T.walk · names') := by
  induction names generalizing k with
  | nil => rfl
  | cons n rest ih =>
    rw [List.cons_append, walk, walk, Option.bind_assoc]
    exact congrArg _ (funext fun c => ih)

theorem walk_concat : T.walk k (names ++ [n]) = (T.walk k names).bind (T.child · n) := by
  rw [walk_append]
  exact congrArg _ (funext fun c => Option.bind_fun_some _)

theorem child_spec (found : T.child k n = some c) : c ∈ T.children k ∧ T.name c = n :=
  ⟨List.mem_of_find?_eq_some found,
    of_decide_eq_true (List.find?_some (p := fun c => decide (T.name c = n)) found)⟩

omit [DecidableEq ν] in
theorem Holds.child (holds : T.Holds k) (member : c ∈ T.children k) : T.Holds c := Under.child holds member

theorem Holds.walk (holds : T.Holds k) (reached : T.walk k names = some c) : T.Holds c := by
  induction names generalizing k with
  | nil => exact Option.some.inj reached ▸ holds
  | cons n rest ih =>
    obtain ⟨d, found, later⟩ := Option.bind_eq_some_iff.mp reached
    exact ih (holds.child (child_spec found).1) later

theorem walk_last (reached : T.walk T.root (names ++ [n]) = some c) :
    T.walk T.root names = some (T.parent c) ∧ T.name c = n ∧ c ≠ T.root := by
  rw [walk_concat] at reached
  obtain ⟨k, before, found⟩ := Option.bind_eq_some_iff.mp reached
  obtain ⟨member, same⟩ := child_spec found
  have holds : T.Holds k := Holds.walk Under.root before
  refine ⟨?_, same, fun isRoot => T.root_alone k holds (isRoot ▸ member)⟩
  rw [before, T.parent_eq k holds c member]

theorem walk_injective (first : T.walk T.root names = some c) (second : T.walk T.root names' = some c) :
    names = names' := by
  induction names using List.reverseRecOn generalizing names' c with
  | nil =>
    obtain rfl := Option.some.inj first
    rcases List.eq_nil_or_concat names' with rfl | ⟨front, n, rfl⟩
    · rfl
    · rw [List.concat_eq_append] at second
      exact absurd rfl (walk_last second).2.2
  | append_singleton front n ih =>
    obtain ⟨before, named, notRoot⟩ := walk_last first
    rcases List.eq_nil_or_concat names' with rfl | ⟨front', n', rfl⟩
    · exact absurd (Option.some.inj second).symm notRoot
    · rw [List.concat_eq_append] at second ⊢
      obtain ⟨before', named', -⟩ := walk_last second
      rw [ih before before', ← named, ← named']

end NamedTree
end VeaOS.Foundation
