import Mathlib.Data.Fintype.Pigeonhole

/-! Walks that follow links through finitely many places. A walk ends just where it comes to no
place a second time. -/
namespace VeaOS.Foundation
variable {α ρ : Type}

/-- The places of a walk, one after another. -/
def placesFrom (next : α → Option α) (start : α) : Nat → Option α
  | 0 => some start
  | n + 1 => (placesFrom next start n).bind next

/-- A search along the links, for as many visits. -/
def search (visit : α → ρ ⊕ α) : Nat → α → Option ρ
  | 0, _ => none
  | visits + 1, place =>
    match visit place with
    | .inl result => some result
    | .inr following => search visit visits following

section Places
variable {next : α → Option α} {start a : α}

theorem placesFrom_add (m n : Nat) (here : placesFrom next start m = some a) :
    placesFrom next start (m + n) = placesFrom next a n := by
  induction n with
  | zero => exact here
  | succ n ih => rw [← Nat.add_assoc, placesFrom, ih, placesFrom]

theorem placesFrom_ended {m n : Nat} (ended : placesFrom next start m = none) (later : m ≤ n) :
    placesFrom next start n = none := by
  induction n, later using Nat.le_induction with
  | base => exact ended
  | succ n _ ih => rw [placesFrom, ih, Option.bind_none]

theorem placesFrom_again {i j : Nat} (before : i < j) (first : placesFrom next start i = some a)
    (second : placesFrom next start j = some a) (rounds : Nat) :
    placesFrom next start (i + rounds * (j - i)) = some a := by
  have round : placesFrom next a (j - i) = some a := by
    rw [← placesFrom_add i (j - i) first, Nat.add_sub_cancel' (Nat.le_of_lt before), second]
  induction rounds with
  | zero => rw [Nat.zero_mul, Nat.add_zero, first]
  | succ rounds ih => rw [Nat.succ_mul, ← Nat.add_assoc, placesFrom_add _ _ ih, round]

theorem placesFrom_ends_iff [Finite α] : (∃ n, placesFrom next start n = none) ↔
    ∀ i j, i < j → ∀ a, placesFrom next start i = some a → placesFrom next start j ≠ some a := by
  constructor
  · rintro ⟨n, ended⟩ i j before a first second
    have again := placesFrom_again before first second n
    have later : n ≤ i + n * (j - i) :=
      (Nat.le_mul_of_pos_right n (Nat.sub_pos_of_lt before)).trans (Nat.le_add_left _ _)
    rw [placesFrom_ended ended later] at again
    cases again
  · intro fresh
    by_contra endless
    have reaches : ∀ n, ∃ a, placesFrom next start n = some a := fun n =>
      Option.ne_none_iff_exists'.mp fun ended => endless ⟨n, ended⟩
    choose place reached using reaches
    obtain ⟨i, j, differ, same⟩ := Finite.exists_ne_map_eq_of_infinite place
    rcases Nat.lt_or_gt_of_ne differ with before | before
    · exact fresh i j before (place i) (reached i) (same ▸ reached j)
    · exact fresh j i before (place j) (reached j) (same ▸ reached i)

theorem placesFrom_last (ends : ∃ n, placesFrom next start n = none) :
    ∃ n last, placesFrom next start n = some last ∧ next last = none := by
  obtain ⟨n, ended⟩ := ends
  induction n with
  | zero => cases ended
  | succ n ih =>
    cases reached : placesFrom next start n with
    | none => exact ih reached
    | some last =>
      rw [placesFrom, reached] at ended
      exact ⟨n, last, reached, ended⟩

end Places

section Search
variable {visit : α → ρ ⊕ α} {start last : α} {result : ρ}

def goesOnTo (visit : α → ρ ⊕ α) (place : α) : Option α := (visit place).getRight?

theorem goesOnTo_some : goesOnTo visit a = some b ↔ visit a = .inr b := by
  rw [goesOnTo, Sum.getRight?_eq_some_iff]

theorem goesOnTo_none (given : visit a = .inl result) : goesOnTo visit a = none := by
  rw [goesOnTo, given]
  rfl

theorem search_eq_some_iff : (∃ visits, search visit visits start = some result) ↔
    ∃ n last, placesFrom (goesOnTo visit) start n = some last ∧ visit last = .inl result := by
  constructor
  · rintro ⟨visits, found⟩
    induction visits generalizing start with
    | zero => cases found
    | succ visits ih =>
      rw [search] at found
      cases visited : visit start with
      | inl given =>
        rw [visited] at found
        exact ⟨0, start, rfl, visited.trans (congrArg Sum.inl (Option.some.inj found))⟩
      | inr following =>
        rw [visited] at found
        obtain ⟨n, last, reached, ends⟩ := ih found
        have first : placesFrom (goesOnTo visit) start 1 = some following := goesOnTo_some.mpr visited
        exact ⟨1 + n, last, (placesFrom_add 1 n first).trans reached, ends⟩
  · rintro ⟨n, last, reached, ends⟩
    induction n generalizing start with
    | zero =>
      obtain rfl := Option.some.inj reached
      exact ⟨1, by rw [search, ends]⟩
    | succ n ih =>
      cases visited : visit start with
      | inl given =>
        have stops : placesFrom (goesOnTo visit) start 1 = none := goesOnTo_none visited
        rw [placesFrom_ended stops (Nat.le_add_left 1 n)] at reached
        cases reached
      | inr following =>
        have first : placesFrom (goesOnTo visit) start 1 = some following := goesOnTo_some.mpr visited
        rw [Nat.add_comm, placesFrom_add 1 n first] at reached
        obtain ⟨visits, found⟩ := ih reached
        refine ⟨visits + 1, ?_⟩
        rw [search, visited]
        exact found

theorem search_unique {visits visits' : Nat} (found : search visit visits start = some result)
    (found' : search visit visits' start = some result') : result = result' := by
  induction visits generalizing start visits' with
  | zero => cases found
  | succ visits ih =>
    cases visits' with
    | zero => cases found'
    | succ visits' =>
      rw [search] at found found'
      cases visited : visit start with
      | inl given =>
        rw [visited] at found found'
        exact (Option.some.inj found).symm.trans (Option.some.inj found')
      | inr following =>
        rw [visited] at found found'
        exact ih found found'

theorem search_ends_iff [Finite α] (allowed : ρ → Prop) :
    (∃ visits result, search visit visits start = some result ∧ allowed result) ↔
      (∀ i j, i < j → ∀ a, placesFrom (goesOnTo visit) start i = some a →
        placesFrom (goesOnTo visit) start j ≠ some a) ∧
      ∀ n a, placesFrom (goesOnTo visit) start n = some a → ∀ result, visit a = .inl result → allowed result := by
  constructor
  · rintro ⟨visits, result, found, right⟩
    obtain ⟨n, last, reached, ends⟩ := search_eq_some_iff.mp ⟨visits, found⟩
    have ended : placesFrom (goesOnTo visit) start (n + 1) = none := by
      rw [placesFrom, reached]
      exact goesOnTo_none ends
    refine ⟨placesFrom_ends_iff.mp ⟨n + 1, ended⟩, fun m a reached' result' ends' => ?_⟩
    obtain ⟨visits', found'⟩ := search_eq_some_iff.mpr ⟨m, a, reached', ends'⟩
    exact search_unique found found' ▸ right
  · rintro ⟨fresh, right⟩
    obtain ⟨n, last, reached, ended⟩ := placesFrom_last (placesFrom_ends_iff.mpr fresh)
    cases visited : visit last with
    | inl result =>
      obtain ⟨visits, found⟩ := search_eq_some_iff.mpr ⟨n, last, reached, visited⟩
      exact ⟨visits, result, found, right n last reached result visited⟩
    | inr following =>
      rw [goesOnTo_some.mpr visited] at ended
      cases ended

theorem search_ends_good_iff [Finite α] {next : α → Option α} {good : α → Prop} (allowed : ρ → Prop)
    (links : ∀ a, good a → goesOnTo visit a = next a)
    (right : ∀ a result, good a → visit a = .inl result → allowed result)
    (wrong : ∀ a, ¬ good a → ∃ result, visit a = .inl result ∧ ¬ allowed result) :
    (∃ visits result, search visit visits start = some result ∧ allowed result) ↔
      (∀ i j, i < j → ∀ a, placesFrom next start i = some a → placesFrom next start j ≠ some a) ∧
      ∀ n a, placesFrom next start n = some a → good a := by
  have same (all : ∀ n a, placesFrom (goesOnTo visit) start n = some a → good a) (n : Nat) :
      placesFrom next start n = placesFrom (goesOnTo visit) start n := by
    induction n with
    | zero => rfl
    | succ n ih =>
      rw [placesFrom, placesFrom, ih]
      cases reached : placesFrom (goesOnTo visit) start n with
      | none => rfl
      | some a => exact (links a (all n a reached)).symm
  have same' (all : ∀ n a, placesFrom next start n = some a → good a) (n : Nat) :
      placesFrom (goesOnTo visit) start n = placesFrom next start n := by
    induction n with
    | zero => rfl
    | succ n ih =>
      rw [placesFrom, placesFrom, ih]
      cases reached : placesFrom next start n with
      | none => rfl
      | some a => exact links a (all n a reached)
  rw [search_ends_iff]
  constructor
  · rintro ⟨fresh, ends⟩
    have all (n : Nat) (a : α) (reached : placesFrom (goesOnTo visit) start n = some a) : good a := by
      by_contra bad
      obtain ⟨result, visited, refused⟩ := wrong a bad
      exact refused (ends n a reached result visited)
    simp only [same all]
    exact ⟨fresh, all⟩
  · rintro ⟨fresh, all⟩
    simp only [same' all]
    exact ⟨fresh, fun n a reached result visited => right a result (all n a reached) visited⟩

theorem search_stays (stays : visit start = .inr start) (visits : Nat) : search visit visits start = none := by
  induction visits with
  | zero => rfl
  | succ visits ih =>
    rw [search, stays]
    exact ih

end Search
end VeaOS.Foundation
