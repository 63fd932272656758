import Mathlib.Data.List.Basic

/-! Things spread over places: how many of a list are flagged once a flag is written, and
the lists of the places between which things that are in one place each are moved. -/
namespace VeaOS.Foundation
variable {α κ : Type*}

section Flags
variable {members xs ys : List α} {flag : α → Bool} {t : α} {b : Bool}

theorem length_filter_split : ((xs ++ t :: ys).filter fun u => flag u).length =
    ((xs ++ ys).filter fun u => flag u).length + if flag t then 1 else 0 := by
  simp only [List.filter_append, List.filter_cons, List.length_append]
  split_ifs <;> simp +arith

variable [DecidableEq α]

theorem filter_update_absent (absent : t ∉ members) :
    members.filter (fun u => Function.update flag t b u) = members.filter fun u => flag u :=
  List.filter_congr fun u member => by rw [Function.update_of_ne (ne_of_mem_of_not_mem member absent)]

theorem length_filter_update (flag : α → Bool) (b : Bool) (distinct : members.Nodup) (member : t ∈ members) :
    (members.filter fun u => Function.update flag t b u).length + (if flag t then 1 else 0) =
      (members.filter fun u => flag u).length + if b then 1 else 0 := by
  obtain ⟨xs, ys, split⟩ := List.append_of_mem member
  have absent : t ∉ xs ++ ys := by grind
  rw [split, length_filter_split, length_filter_split, filter_update_absent absent, Function.update_self]
  omega

end Flags

/-- Everything that satisfies `all` is in one place, once. -/
structure Shared (place : κ → List α) (all : α → Prop) : Prop where
  once : ∀ p, (place p).Nodup
  apart : ∀ {p q n}, n ∈ place p → n ∈ place q → p = q
  all : ∀ n, all n ↔ ∃ p, n ∈ place p

namespace Shared
variable {place place' : κ → List α} {all : α → Prop} {p q : κ} {n : α}

theorem congr (shared : Shared place all) (same : ∀ p, place' p = place p) : Shared place' all := by
  rwa [show place' = place from funext same]

theorem all_congr (shared : Shared place all) (same : ∀ n, all' n ↔ all n) : Shared place all' :=
  ⟨shared.once, shared.apart, fun n => (same n).trans (shared.all n)⟩

theorem add (shared : Shared place all) (fresh : ¬ all n) (there : place' p = place p ++ [n])
    (others : ∀ q ≠ p, place' q = place q) : Shared place' fun m => all m ∨ m = n := by
  have nowhere : ∀ q, n ∉ place q := fun q member => fresh ((shared.all n).mpr ⟨q, member⟩)
  have at_place : ∀ {q m}, m ∈ place' q ↔ m ∈ place q ∨ (q = p ∧ m = n) := by
    intro q m
    by_cases same : q = p
    · rw [same, there]
      simp
    · rw [others q same]
      simp [same]
  refine ⟨fun q => ?_, fun {q r m} here elsewhere => ?_, fun m => ?_⟩
  · by_cases same : q = p
    · rw [same, there]
      have once := shared.once p
      have absent := nowhere p
      grind
    · rw [others q same]
      exact shared.once q
  · rcases at_place.mp here with old | ⟨rfl, rfl⟩
    · rcases at_place.mp elsewhere with old' | ⟨-, rfl⟩
      · exact shared.apart old old'
      · exact absurd old (nowhere q)
    · rcases at_place.mp elsewhere with old' | ⟨same, -⟩
      · exact absurd old' (nowhere r)
      · exact same.symm
  · simp only [at_place, exists_or, exists_eq_left, shared.all m]

theorem move (shared : Shared place all) (other : p ≠ q) (left : place p = n :: place' p)
    (arrives : place' q = n :: place q) (others : ∀ r, r ≠ p → r ≠ q → place' r = place r) : Shared place' all := by
  have onceP := shared.once p
  rw [left] at onceP
  have here : n ∈ place p := by
    rw [left]
    exact List.mem_cons_self
  have notThere : n ∉ place q := fun member => other (shared.apart here member)
  have at_place : ∀ {r m}, m ∈ place' r ↔ (m ≠ n ∧ m ∈ place r) ∨ (m = n ∧ r = q) := by
    intro r m
    by_cases fromP : r = p
    · subst fromP
      rw [left]
      have := (List.nodup_cons.mp onceP).1
      grind
    · by_cases toQ : r = q
      · subst toQ
        rw [arrives]
        grind
      · rw [others r fromP toQ]
        have : m = n → m ∉ place r := fun same member => fromP (shared.apart (same ▸ member) here)
        grind
  refine ⟨fun r => ?_, fun {r s m} first second => ?_, fun m => ?_⟩
  · by_cases fromP : r = p
    · rw [fromP]
      exact (List.nodup_cons.mp onceP).2
    · by_cases toQ : r = q
      · rw [toQ, arrives]
        exact List.nodup_cons.mpr ⟨notThere, shared.once q⟩
      · rw [others r fromP toQ]
        exact shared.once r
  · rcases at_place.mp first with ⟨differs, old⟩ | ⟨rfl, rfl⟩
    · rcases at_place.mp second with ⟨-, old'⟩ | ⟨same, -⟩
      · exact shared.apart old old'
      · exact absurd same differs
    · rcases at_place.mp second with ⟨differs, -⟩ | ⟨-, same⟩
      · exact absurd rfl differs
      · exact same.symm
  · rw [shared.all m]
    by_cases same : m = n
    · subst same
      exact iff_of_true ⟨p, here⟩ ⟨q, at_place.mpr (.inr ⟨rfl, rfl⟩)⟩
    · refine exists_congr fun r => ⟨fun old => at_place.mpr (.inl ⟨same, old⟩), fun new => ?_⟩
      rcases at_place.mp new with ⟨-, old⟩ | ⟨same', -⟩
      · exact old
      · exact absurd same' same

end Shared
end VeaOS.Foundation
