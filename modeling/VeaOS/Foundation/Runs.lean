import Mathlib.Data.List.Basic

/-! Finite labelled executions of an arbitrary step relation. A property of
every reachable state is proved once from a step lemma; a guard on the steps
of a run is part of the relation it is a run of. -/
namespace VeaOS.Transition
variable {S A : Type*}

inductive Run (step : S → A → S → Prop) : S → List A → S → Prop where
  | refl (s) : Run step s [] s
  | next : step s a t → Run step t rest u → Run step s (a :: rest) u

/-- Every step of the run is taken from a state that admits its action. -/
def Guarded (admits : S → A → Prop) (step : S → A → S → Prop) : S → A → S → Prop :=
  fun s a t => admits s a ∧ step s a t

namespace Run
variable {step : S → A → S → Prop}

theorem invariant {P : S → Prop} (preserves : ∀ {s a t}, P s → step s a t → P t)
    (run : Run step s actions t) (initial : P s) : P t := by
  induction run with
  | refl => exact initial
  | next head tail ih => exact ih (preserves initial head)

theorem trans (first : Run step s actions t) (second : Run step t more u) :
    Run step s (actions ++ more) u := by
  induction first with
  | refl => exact second
  | next head tail ih => exact .next head (ih second)

theorem single (stepped : step s a t) : Run step s [a] t := .next stepped (.refl t)

theorem mono {weaker : S → A → S → Prop} (weaken : ∀ {s a t}, step s a t → weaker s a t)
    (run : Run step s actions t) : Run weaker s actions t := by
  induction run with
  | refl => exact .refl _
  | next head tail ih => exact .next (weaken head) ih

/-- A guard that every action of a run meets in any state. -/
theorem guard {admits good : S → A → Prop} (run : Run (Guarded admits step) s actions t)
    (all : ∀ a ∈ actions, ∀ s, good s a) : Run (Guarded (fun s a => admits s a ∧ good s a) step) s actions t := by
  induction run with
  | refl => exact .refl _
  | next head tail ih =>
    exact .next ⟨⟨head.1, all _ List.mem_cons_self _⟩, head.2⟩
      (ih fun a member => all a (List.mem_cons_of_mem _ member))

/-- Steps that each bring a measure down reach a goal within as many of them. -/
theorem reach {quiet : A → Prop} (P goal : S → Prop) (m : S → Nat)
    (advance : ∀ s, P s → ¬ goal s → ∃ a t, quiet a ∧ step s a t ∧ P t ∧ m t < m s) (initial : P s) :
    ∃ actions t, (∀ a ∈ actions, quiet a) ∧ actions.length ≤ m s ∧ Run step s actions t ∧ P t ∧ goal t := by
  induction size : m s using Nat.strongRecOn generalizing s with
  | ind n ih =>
    by_cases done : goal s
    · exact ⟨[], s, by simp, Nat.zero_le _, .refl s, initial, done⟩
    · obtain ⟨a, t, calm, stepped, after, less⟩ := advance s initial done
      obtain ⟨actions, u, quiet, short, run, final, done⟩ := ih (m t) (size ▸ less) after rfl
      refine ⟨a :: actions, u, ?_, ?_, .next stepped run, final, done⟩
      · exact List.forall_mem_cons.mpr ⟨calm, quiet⟩
      · rw [List.length_cons]
        omega

end Run

section Executions

/-- A run of actions that are carried out one after the other, each of which
may fail to end. -/
def exec (step : S → A → Option S) : S → List A → Option S
  | s, [] => some s
  | s, a :: rest => (step s a).bind fun t => exec step t rest

theorem exec_append (step : S → A → Option S) (s : S) (first second : List A) :
    exec step s (first ++ second) = (exec step s first).bind fun t => exec step t second := by
  induction first generalizing s with
  | nil => rfl
  | cons a rest ih =>
    simp only [List.cons_append, exec, Option.bind_assoc]
    exact congrArg _ (funext fun t => ih t)

/-- A condition on every action of a run, in the state where it is carried out. -/
def Along (admits : S → A → Prop) (step : S → A → Option S) : S → List A → Prop
  | _, [] => True
  | s, a :: rest => admits s a ∧ ∀ t, step s a = some t → Along admits step t rest

instance Along.decidable {admits : S → A → Prop} [∀ s a, Decidable (admits s a)] {step : S → A → Option S} :
    ∀ s actions, Decidable (Along admits step s actions)
  | _, [] => isTrue trivial
  | s, a :: rest =>
    match stepped : step s a with
    | none => decidable_of_iff (admits s a) (by simp [Along, stepped])
    | some t =>
      have := (Along.decidable t rest : Decidable (Along admits step t rest))
      decidable_of_iff (admits s a ∧ Along admits step t rest) (by simp [Along, stepped])

/-- A run whose steps are all admitted, as a run of a function. -/
theorem Run.along {admits : S → A → Prop} {step : S → A → Option S}
    (run : Run (Guarded admits fun s a t => step s a = some t) s actions t) :
    Along admits step s actions ∧ exec step s actions = some t := by
  induction run with
  | refl => exact ⟨trivial, rfl⟩
  | next head tail ih =>
    obtain ⟨admitted, stepped⟩ := head
    refine ⟨⟨admitted, fun t there => ?_⟩, ?_⟩
    · cases stepped.symm.trans there
      exact ih.1
    · rw [exec, stepped]
      exact ih.2

theorem Along.of_forall {admits : S → A → Prop} {step : S → A → Option S}
    (all : ∀ a ∈ actions, ∀ s, admits s a) : Along admits step s actions := by
  induction actions generalizing s with
  | nil => trivial
  | cons a rest ih =>
    exact ⟨all a List.mem_cons_self s, fun t _ => ih fun b member => all b (List.mem_cons_of_mem a member)⟩

theorem exec_invariant {admits : S → A → Prop} {step : S → A → Option S} {P : Nat → S → Prop}
    (preserves : ∀ {n s a}, P n s → admits s a → n < size → ∃ t, step s a = some t ∧ P (n + 1) t)
    (initial : P n s) (admitted : Along admits step s actions) (bound : n + actions.length ≤ size) :
    ∃ t, exec step s actions = some t ∧ P (n + actions.length) t := by
  induction actions generalizing n s with
  | nil => exact ⟨s, rfl, initial⟩
  | cons a rest ih =>
    simp only [List.length_cons] at bound
    obtain ⟨t, stepped, next⟩ := preserves initial admitted.1 (by omega)
    obtain ⟨u, ended, final⟩ := ih next (admitted.2 t stepped) (by omega)
    refine ⟨u, by rw [exec, stepped]; exact ended, ?_⟩
    rwa [List.length_cons, show n + (rest.length + 1) = n + 1 + rest.length by omega]

theorem along_holds {admits good : S → A → Prop} {step : S → A → Option S} {P : Nat → S → Prop}
    (preserves : ∀ {n s a}, P n s → admits s a → n < size → ∃ t, step s a = some t ∧ P (n + 1) t)
    (holds : ∀ {n s a}, P n s → admits s a → n < size → good s a)
    (initial : P n s) (admitted : Along admits step s actions) (bound : n + actions.length ≤ size) :
    Along good step s actions := by
  induction actions generalizing n s with
  | nil => trivial
  | cons a rest ih =>
    simp only [List.length_cons] at bound
    obtain ⟨t, stepped, next⟩ := preserves initial admitted.1 (by omega)
    refine ⟨holds initial admitted.1 (by omega), fun u same => ?_⟩
    cases stepped.symm.trans same
    exact ih next (admitted.2 t stepped) (by omega)

theorem exec_preserves {admits : S → A → Prop} {step : S → A → Option S} {P : S → Prop}
    (preserves : ∀ {s a t}, P s → admits s a → step s a = some t → P t) (initial : P s)
    (admitted : Along admits step s actions) (executed : exec step s actions = some t) : P t := by
  induction actions generalizing s with
  | nil =>
    cases executed
    exact initial
  | cons a rest ih =>
    obtain ⟨u, stepped, ended⟩ := Option.bind_eq_some_iff.mp executed
    exact ih (preserves initial admitted.1 stepped) (admitted.2 u stepped) ended

theorem exec_exact {admits meets : S → A → Prop} {step : S → A → Option S} {P Q : S → Prop}
    (preserves : ∀ {s a t}, P s → admits s a → step s a = some t → P t)
    (exact_ : ∀ {s a t}, P s → admits s a → step s a = some t → (Q t ↔ Q s ∧ meets s a))
    (initial : P s) (admitted : Along admits step s actions) (executed : exec step s actions = some t) :
    Q t ↔ Q s ∧ Along meets step s actions := by
  induction actions generalizing s with
  | nil =>
    cases executed
    simp [Along]
  | cons a rest ih =>
    obtain ⟨u, stepped, ended⟩ := Option.bind_eq_some_iff.mp executed
    rw [ih (preserves initial admitted.1 stepped) (admitted.2 u stepped) ended,
      exact_ initial admitted.1 stepped, and_assoc, Along]
    refine and_congr_right fun _ => and_congr_right fun _ => ⟨fun rest u' same => ?_, fun all => all u stepped⟩
    cases stepped.symm.trans same
    exact rest

theorem along_exact {admits meets : S → A → Prop} {step : S → A → Option S} {P : Nat → S → Prop}
    {Q : S → Prop} (preserves : ∀ {n s a}, P n s → admits s a → n < size →
      ∃ t, step s a = some t ∧ P (n + 1) t ∧ (Q s → (Q t ↔ meets s a)))
    (initial : P n s) (start : Q s) (admitted : Along admits step s actions)
    (bound : n + actions.length ≤ size) :
    Along (fun s a => ∀ t, step s a = some t → Q t) step s actions ↔ Along meets step s actions := by
  induction actions generalizing n s with
  | nil => exact Iff.rfl
  | cons a rest ih =>
    simp only [List.length_cons] at bound
    obtain ⟨t, stepped, next, exactly⟩ := preserves initial admitted.1 (by omega)
    have following := fun kept : Q t => ih next kept (admitted.2 t stepped) (by omega)
    constructor
    · rintro ⟨kept, along⟩
      refine ⟨(exactly start).mp (kept t stepped), fun u same => ?_⟩
      cases stepped.symm.trans same
      exact (following (kept t stepped)).mp (along t stepped)
    · rintro ⟨met, along⟩
      have kept := (exactly start).mpr met
      refine ⟨fun u same => ?_, fun u same => ?_⟩
      all_goals cases stepped.symm.trans same
      · exact kept
      · exact (following kept).mpr (along t stepped)

theorem along_good_iff {meets : S → A → Prop} {step : S → A → Option S} {P : S → Prop}
    {good : S → A → S → Prop} (exactly : ∀ {s a t}, P s → step s a = some t → (good s a t ↔ meets s a))
    (stuck : ∀ {s a}, P s → step s a = none → meets s a)
    (preserves : ∀ {s a t}, P s → meets s a → step s a = some t → P t) (initial : P s) :
    Along (fun s a => ∀ t, step s a = some t → good s a t) step s actions ↔ Along meets step s actions := by
  induction actions generalizing s with
  | nil => exact Iff.rfl
  | cons a rest ih =>
    have first : (∀ t, step s a = some t → good s a t) ↔ meets s a := by
      cases stepped : step s a with
      | none => exact iff_of_true (fun t same => by cases same) (stuck initial stepped)
      | some t =>
        rw [← exactly initial stepped]
        exact ⟨fun all => all t rfl, fun kept u same => Option.some.inj same ▸ kept⟩
    rw [Along, Along, first]
    refine and_congr_right fun met => forall_congr' fun t => imp_congr_right fun stepped => ?_
    exact ih (preserves initial met stepped)

end Executions
end VeaOS.Transition
