import VeaOS.Foundation.Runs
import VeaOS.Ks.DpcQueue

/-! Interleavings of insertions and removals with the steps of the dispatch
interrupt. A call is lost when it is queued after the loop looked at the list
for the last time, and runs with the wrong arguments when it is queued again
before the loop has read them. -/
namespace VeaOS.Ks
open Transition Function List Option RetirePoint
variable {Dpc Arg : Type} [DecidableEq Dpc]

/-- What happens to the calls, the latest first. -/
inductive DpcEvent (Dpc Arg : Type) where
  | inserted (dpc : Dpc) (systemArgument1 systemArgument2 : Arg)
  | removed (dpc : Dpc)
  | ran (dpc : Dpc) (systemArgument1 systemArgument2 : Arg)

def DpcEvent.dpc : DpcEvent Dpc Arg → Dpc
  | .inserted dpc _ _ => dpc
  | .removed dpc => dpc
  | .ran dpc _ _ => dpc

/-- Insertions of a call are answered in turn, each by one run with its
arguments or by one removal; the last one may be `unanswered`. -/
inductive Settled (dpc : Dpc) : List (DpcEvent Dpc Arg) → Option (Arg × Arg) → Prop where
  | start : Settled dpc [] none
  | inserted : Settled dpc events none → Settled dpc (.inserted dpc a b :: events) (some (a, b))
  | ran : Settled dpc events (some (a, b)) → Settled dpc (.ran dpc a b :: events) none
  | removed : Settled dpc events (some unanswered) → Settled dpc (.removed dpc :: events) none
  | other : event.dpc ≠ dpc → Settled dpc events unanswered → Settled dpc (event :: events) unanswered

structure DpcRun (Dpc Arg : Type) where
  prcb : KPrcb Dpc Arg
  events : List (DpcEvent Dpc Arg)

/-- The steps of a processor; none once an interrupt spins. -/
def dpcStep (σ : DpcRun Dpc Arg) (action : DpcAction Dpc Arg) : Option (DpcRun Dpc Arg) :=
  if σ.prcb.spinning then none
  else match action with
    | .insert dpc a b =>
      let (prcb, inserted) := ksInsertQueueDpc σ.prcb dpc a b
      some ⟨prcb, if inserted then .inserted dpc a b :: σ.events else σ.events⟩
    | .remove dpc =>
      let (prcb, removed) := ksRemoveQueueDpc σ.prcb dpc
      some ⟨prcb, if removed then .removed dpc :: σ.events else σ.events⟩
    | .clock => some ⟨{ σ.prcb with dispatchPending := true }, σ.events⟩
    | .accept =>
      if σ.prcb.dispatchPending && σ.prcb.point = .outside then
        some ⟨{ σ.prcb with dispatchPending := false, point := .entered }, σ.events⟩
      else none
    | .dispatch => (ksiDispatchInterrupt σ.prcb).map fun (prcb, call) =>
      ⟨prcb, match call with
        | some (dpc, a, b) => .ran dpc a b :: σ.events
        | none => σ.events⟩

/-- The arguments of the insertion that is not answered yet. -/
def unanswered (σ : KPrcb Dpc Arg) (dpc : Dpc) : Option (Arg × Arg) :=
  if dpc ∈ σ.dpcListHead ∨ σ.point.taken = some dpc then
    some ((σ.dpc dpc).systemArgument1, (σ.dpc dpc).systemArgument2)
  else none

structure Attended (σ : DpcRun Dpc Arg) : Prop where
  runs : σ.prcb.spinning = false
  requested : σ.prcb.dpcInterruptRequested = true →
    σ.prcb.dispatchPending = true ∨ σ.prcb.point = .entered
  active : σ.prcb.dpcRoutineActive = σ.prcb.point.routineActive
  attended : σ.prcb.dpcListHead ≠ [] →
    σ.prcb.dispatchPending = true ∨ σ.prcb.point.willTest = true
  data (dpc) : (σ.prcb.dpc dpc).dpcData = true ↔ dpc ∈ σ.prcb.dpcListHead
  once : σ.prcb.dpcListHead.Nodup
  apart {dpc} : σ.prcb.point.taken = some dpc → dpc ∉ σ.prcb.dpcListHead
  settled (dpc) : Settled dpc σ.events (unanswered σ.prcb dpc)

/-- No interrupt wants the lock while the loop holds it, none inserts a call
after the loop is left unless a dispatch interrupt is on its way anyway, and
none inserts the call whose arguments the loop is about to read. -/
def Undisturbed (σ : DpcRun Dpc Arg) : DpcAction Dpc Arg → Prop
  | .insert dpc _ _ => σ.prcb.point.holdsLock = false ∧
      (σ.prcb.point = .finishing → σ.prcb.dispatchPending = true) ∧ σ.prcb.point.taken ≠ some dpc
  | .remove dpc => (σ.prcb.dpc dpc).dpcData = true → σ.prcb.point.holdsLock = false
  | _ => True

/-- An insertion that succeeds: the call is on the list, and a dispatch interrupt
is requested unless the loop is active or one was requested before. -/
structure Inserted (σ prcb : KPrcb Dpc Arg) (dpc : Dpc) (a b : Arg) : Prop where
  list : prcb.dpcListHead.Perm (dpc :: σ.dpcListHead)
  calls : prcb.dpc = Function.update σ.dpc dpc ⟨(σ.dpc dpc).importance, a, b, true⟩
  point : prcb.point = σ.point
  spinning : prcb.spinning = σ.spinning
  active : prcb.dpcRoutineActive = σ.dpcRoutineActive
  request : (prcb.dispatchPending = true ∧ prcb.dpcInterruptRequested = true) ∨
    (prcb.dispatchPending = σ.dispatchPending ∧ prcb.dpcInterruptRequested = σ.dpcInterruptRequested ∧
      (σ.dpcRoutineActive = true ∨ σ.dpcInterruptRequested = true))

theorem ksInsertQueueDpc_fresh {σ : KPrcb Dpc Arg} (free : σ.point.holdsLock = false)
    (absent : (σ.dpc dpc).dpcData = false) :
    ∃ prcb, ksInsertQueueDpc σ dpc a b = (prcb, true) ∧ Inserted σ prcb dpc a b := by
  have list : (if (σ.dpc dpc).importance = .high then dpc :: σ.dpcListHead
      else σ.dpcListHead ++ [dpc]).Perm (dpc :: σ.dpcListHead) := by
    split
    · exact Perm.refl _
    · exact perm_append_singleton dpc σ.dpcListHead
  simp only [ksInsertQueueDpc, free, absent, Bool.false_eq_true, if_false]
  split
  · exact ⟨_, rfl, list, rfl, rfl, rfl, rfl, Or.inl ⟨rfl, rfl⟩⟩
  next seen =>
    refine ⟨_, rfl, list, rfl, rfl, rfl, rfl, Or.inr ⟨rfl, rfl, ?_⟩⟩
    simpa only [Bool.and_eq_true, Bool.not_eq_true', not_and_or, Bool.not_eq_false] using seen

namespace Attended
variable {σ : DpcRun Dpc Arg} (attended : Attended σ)
include attended

theorem move (prcb : KPrcb Dpc Arg) (calls : prcb.dpc = σ.prcb.dpc)
    (list : prcb.dpcListHead = σ.prcb.dpcListHead) (taken : prcb.point.taken = σ.prcb.point.taken)
    (runs : prcb.spinning = false)
    (requested : prcb.dpcInterruptRequested = true →
      prcb.dispatchPending = true ∨ prcb.point = .entered)
    (active : prcb.dpcRoutineActive = prcb.point.routineActive)
    (watched : σ.prcb.dpcListHead ≠ [] → prcb.dispatchPending = true ∨ prcb.point.willTest = true) :
    Attended ⟨prcb, σ.events⟩ := by
  constructor
  case runs => exact runs
  case requested => exact requested
  case active => exact active
  case attended => exact list ▸ watched
  case data => exact fun x => calls ▸ list ▸ attended.data x
  case once => exact list ▸ attended.once
  case apart => exact fun same => list ▸ attended.apart (taken ▸ same)
  case settled =>
    intro x
    have same : unanswered prcb x = unanswered σ.prcb x := by
      simp only [unanswered, calls, list, taken]
    exact same ▸ attended.settled x

theorem asked (other : σ.prcb.point ≠ .entered)
    (requested : σ.prcb.dpcInterruptRequested = true) : σ.prcb.dispatchPending = true :=
  (attended.requested requested).resolve_right other

theorem goto (point : σ.prcb.point = p) (other : p ≠ .entered)
    (taken : q.taken = p.taken) (active : q.routineActive = p.routineActive)
    (watched : σ.prcb.dpcListHead ≠ [] → σ.prcb.dispatchPending = true ∨ q.willTest = true) :
    Attended ⟨{ σ.prcb with point := q }, σ.events⟩ := by
  subst point
  apply attended.move { σ.prcb with point := q } rfl rfl taken attended.runs
  · exact fun requested => Or.inl (attended.asked other requested)
  · exact attended.active.trans active.symm
  · exact watched

theorem insert (free : σ.prcb.point.holdsLock = false)
    (watched : σ.prcb.point = .finishing → σ.prcb.dispatchPending = true)
    (untaken : σ.prcb.point.taken ≠ some dpc) :
    ∃ σ', dpcStep σ (.insert dpc a b) = some σ' ∧ Attended σ' := by
  refine ⟨_, by rw [dpcStep, if_neg (by rw [attended.runs]; decide)], ?_⟩
  cases queued : (σ.prcb.dpc dpc).dpcData with
  | true => simpa [ksInsertQueueDpc, free, queued] using attended
  | false =>
    obtain ⟨prcb, done, inserted⟩ := ksInsertQueueDpc_fresh (a := a) (b := b) free queued
    have absent : dpc ∉ σ.prcb.dpcListHead := fun member =>
      absurd ((attended.data dpc).mpr member) (by simp [queued])
    have member : ∀ {x}, x ∈ prcb.dpcListHead ↔ x = dpc ∨ x ∈ σ.prcb.dpcListHead := by
      intro x
      rw [inserted.list.mem_iff, mem_cons]
    simp only [done, if_true]
    constructor
    case runs => exact inserted.spinning.trans attended.runs
    case requested =>
      intro asked
      rw [inserted.point]
      rcases inserted.request with ⟨pending, _⟩ | ⟨pending, requested, _⟩
      · exact Or.inl pending
      · rw [pending]
        exact attended.requested (requested ▸ asked)
    case active => rw [inserted.active, inserted.point, attended.active]
    case attended =>
      intro _
      rw [inserted.point]
      rcases inserted.request with ⟨pending, _⟩ | ⟨pending, requested, seen⟩
      · exact Or.inl pending
      · rw [pending]
        rcases seen with active | asked
        · rw [attended.active] at active
          cases point : σ.prcb.point with
          | finishing => exact Or.inl (watched point)
          | outside | entered | cleared | starting =>
            rw [point] at active
            cases active
          | locked | unlocking popped =>
            rw [point] at free
            cases free
          | testing | locking | calling | running => exact Or.inr rfl
        · rcases attended.requested asked with waiting | entered
          · exact Or.inl waiting
          · rw [entered]
            exact Or.inr rfl
    case data =>
      intro x
      rw [inserted.calls, member]
      by_cases same : x = dpc
      · subst same
        simp
      · rw [update_of_ne same, attended.data x, or_iff_right same]
    case once => exact inserted.list.nodup_iff.mpr (nodup_cons.mpr ⟨absent, attended.once⟩)
    case apart =>
      intro x taken
      rw [inserted.point] at taken
      rw [member, not_or]
      exact ⟨fun same => untaken (same ▸ taken), attended.apart taken⟩
    case settled =>
      intro x
      have before := attended.settled x
      by_cases same : x = dpc
      · subst same
        rw [unanswered, if_neg (not_or.mpr ⟨absent, untaken⟩)] at before
        rw [unanswered, if_pos (Or.inl (member.mpr (Or.inl rfl))), inserted.calls, update_self]
        exact .inserted before
      · have kept : unanswered prcb x = unanswered σ.prcb x := by
          simp only [unanswered, member, same, false_or, inserted.point, inserted.calls,
            update_of_ne same]
        rw [kept]
        exact .other (Ne.symm same) before

theorem remove (free : (σ.prcb.dpc dpc).dpcData = true → σ.prcb.point.holdsLock = false) :
    ∃ σ', dpcStep σ (.remove dpc) = some σ' ∧ Attended σ' := by
  refine ⟨_, by rw [dpcStep, if_neg (by rw [attended.runs]; decide)], ?_⟩
  cases queued : (σ.prcb.dpc dpc).dpcData with
  | false => simpa [ksRemoveQueueDpc, queued] using attended
  | true =>
    have present := (attended.data dpc).mp queued
    have member : ∀ {x}, x ∈ σ.prcb.dpcListHead.erase dpc ↔ x ≠ dpc ∧ x ∈ σ.prcb.dpcListHead :=
      attended.once.mem_erase_iff
    have untaken : σ.prcb.point.taken ≠ some dpc := fun taken => attended.apart taken present
    simp only [ksRemoveQueueDpc, queued, free queued, if_true, Bool.false_eq_true, if_false]
    constructor
    case runs => exact attended.runs
    case requested => exact attended.requested
    case active => exact attended.active
    case attended =>
      intro left
      apply attended.attended
      rintro empty
      exact left (by rw [empty]; rfl)
    case data =>
      intro x
      rw [member]
      by_cases same : x = dpc
      · subst same
        simp
      · simp only [update_of_ne same, attended.data x, ne_eq, same, not_false_eq_true, true_and]
    case once => exact attended.once.erase dpc
    case apart => exact fun taken inside => attended.apart taken (member.mp inside).2
    case settled =>
      intro x
      have before := attended.settled x
      by_cases same : x = dpc
      · subst same
        rw [unanswered, if_pos (Or.inl present)] at before
        rw [unanswered, if_neg (not_or.mpr ⟨fun inside => (member.mp inside).1 rfl, untaken⟩)]
        exact .removed before
      · have kept : unanswered { σ.prcb with
            dpc := update σ.prcb.dpc dpc { σ.prcb.dpc dpc with dpcData := false }
            dpcListHead := σ.prcb.dpcListHead.erase dpc } x = unanswered σ.prcb x := by
          simp only [unanswered, member, ne_eq, same, not_false_eq_true, true_and,
            update_of_ne same]
        rw [kept]
        exact .other (Ne.symm same) before

theorem pop (point : σ.prcb.point = .locked) (head : σ.prcb.dpcListHead = dpc :: rest) :
    Attended ⟨{ σ.prcb with
      dpc := update σ.prcb.dpc dpc { σ.prcb.dpc dpc with dpcData := false }
      dpcListHead := rest
      point := .unlocking (some dpc) }, σ.events⟩ := by
  obtain ⟨absent, once⟩ := nodup_cons.mp (head ▸ attended.once)
  constructor
  case runs => exact attended.runs
  case requested => exact fun asked => Or.inl (attended.asked (by simp [point]) asked)
  case active => rw [attended.active, point]; rfl
  case attended => exact fun _ => Or.inr rfl
  case data =>
    intro x
    by_cases same : x = dpc
    · subst same
      simp [absent]
    · simp only [update_of_ne same, attended.data x, head, mem_cons, same, false_or]
  case once => exact once
  case apart =>
    intro x taken
    obtain rfl := some.inj taken
    exact absent
  case settled =>
    intro x
    have kept : unanswered { σ.prcb with
        dpc := update σ.prcb.dpc dpc { σ.prcb.dpc dpc with dpcData := false }
        dpcListHead := rest
        point := .unlocking (some dpc) } x = unanswered σ.prcb x := by
      by_cases same : x = dpc
      · subst same
        simp only [unanswered, taken, head, mem_cons_self, true_or, or_true, if_true,
          update_self]
      · simp only [unanswered, taken, head, mem_cons, same, Ne.symm same,
          some.injEq, false_or, or_false, point, reduceCtorEq, update_of_ne same]
    rw [kept]
    exact attended.settled x

theorem call (point : σ.prcb.point = .calling dpc) : Attended ⟨{ σ.prcb with point := .running dpc },
      .ran dpc (σ.prcb.dpc dpc).systemArgument1 (σ.prcb.dpc dpc).systemArgument2 :: σ.events⟩ := by
  have taken : σ.prcb.point.taken = some dpc := by rw [point]; rfl
  constructor
  case runs => exact attended.runs
  case requested => exact fun asked => Or.inl (attended.asked (by simp [point]) asked)
  case active => rw [attended.active, point]; rfl
  case attended => exact fun _ => Or.inr rfl
  case data => exact attended.data
  case once => exact attended.once
  case apart => exact fun taken => nomatch taken
  case settled =>
    intro x
    have before := attended.settled x
    by_cases same : x = dpc
    · subst same
      rw [unanswered, if_pos (Or.inr taken)] at before
      rw [unanswered, if_neg (not_or.mpr ⟨attended.apart taken, fun none => nomatch none⟩)]
      exact .ran before
    · have kept : unanswered { σ.prcb with point := .running dpc } x = unanswered σ.prcb x := by
        rw [unanswered, unanswered, taken]
        simp only [RetirePoint.taken, reduceCtorEq, Option.some.injEq, Ne.symm same]
      rw [kept]
      exact .other (Ne.symm same) before

theorem dispatch (stepped : dpcStep σ .dispatch = some σ') : Attended σ' := by
  rw [dpcStep, if_neg (by rw [attended.runs]; decide)] at stepped
  have active := attended.active
  have watched := attended.attended
  cases point : σ.prcb.point with
  | outside => simp [ksiDispatchInterrupt, point] at stepped
  | entered =>
    simp only [ksiDispatchInterrupt, point, map_some, some.injEq] at stepped
    subst stepped
    rw [point] at active
    exact attended.move _ rfl rfl (by rw [point]; rfl) attended.runs Bool.noConfusion active
      fun _ => Or.inr rfl
  | cleared | testing =>
    simp only [ksiDispatchInterrupt, point, map_some, some.injEq] at stepped
    subst stepped
    by_cases empty : σ.prcb.dpcListHead = []
    · rw [if_pos (List.isEmpty_iff.mpr empty)]
      exact attended.goto point (by simp) rfl rfl (absurd empty)
    · rw [if_neg (mt List.isEmpty_iff.mp empty)]
      exact attended.goto point (by simp) rfl rfl fun _ => Or.inr rfl
  | starting =>
    simp only [ksiDispatchInterrupt, point, map_some, some.injEq] at stepped
    subst stepped
    have asked := attended.asked (by simp [point])
    exact attended.move _ rfl rfl (by rw [point]; rfl) attended.runs (fun r => Or.inl (asked r)) rfl
      fun _ => Or.inr rfl
  | locking | running =>
    simp only [ksiDispatchInterrupt, point, map_some, some.injEq] at stepped
    subst stepped
    exact attended.goto point (by simp) rfl rfl fun _ => Or.inr rfl
  | locked =>
    cases list : σ.prcb.dpcListHead with
    | nil =>
      simp only [ksiDispatchInterrupt, point, list, map_some, some.injEq] at stepped
      subst stepped
      exact list ▸ attended.goto point (by simp) rfl rfl (absurd list)
    | cons head rest =>
      simp only [ksiDispatchInterrupt, point, list, map_some, some.injEq] at stepped
      subst stepped
      exact attended.pop point list
  | unlocking popped =>
    cases popped with
    | none =>
      simp only [ksiDispatchInterrupt, point, map_some, some.injEq] at stepped
      subst stepped
      rw [point] at watched
      exact attended.goto point (by simp) rfl rfl
        fun some => Or.inl ((watched some).resolve_right Bool.noConfusion)
    | some dpc =>
      simp only [ksiDispatchInterrupt, point, map_some, some.injEq] at stepped
      subst stepped
      exact attended.goto point (by simp) rfl rfl fun _ => Or.inr rfl
  | calling dpc =>
    simp only [ksiDispatchInterrupt, point, map_some, some.injEq] at stepped
    subst stepped
    exact attended.call point
  | finishing =>
    simp only [ksiDispatchInterrupt, point, map_some, some.injEq] at stepped
    subst stepped
    have asked := attended.asked (by simp [point])
    rw [point] at watched
    exact attended.move _ rfl rfl (by rw [point]; rfl) attended.runs (fun r => Or.inl (asked r)) rfl
      fun some => Or.inl ((watched some).resolve_right Bool.noConfusion)

theorem step (undisturbed : Undisturbed σ action) (stepped : dpcStep σ action = some σ') : Attended σ' := by
  cases action with
  | insert dpc a b =>
    obtain ⟨free, watched, untaken⟩ := undisturbed
    obtain ⟨σ₁, done, next⟩ := attended.insert (a := a) (b := b) free watched untaken
    obtain rfl := some.inj (done.symm.trans stepped)
    exact next
  | remove dpc =>
    obtain ⟨σ₁, done, next⟩ := attended.remove undisturbed
    obtain rfl := some.inj (done.symm.trans stepped)
    exact next
  | clock =>
    rw [dpcStep, if_neg (by rw [attended.runs]; decide)] at stepped
    obtain rfl := some.inj stepped
    exact attended.move _ rfl rfl rfl attended.runs (fun _ => Or.inl rfl) attended.active
      fun _ => Or.inl rfl
  | accept =>
    rw [dpcStep, if_neg (by rw [attended.runs]; decide)] at stepped
    simp only [ite_none_right_eq_some, Bool.and_eq_true, decide_eq_true_eq,
      some.injEq] at stepped
    obtain ⟨⟨_, point⟩, rfl⟩ := stepped
    have active := attended.active
    rw [point] at active
    exact attended.move _ rfl rfl (by rw [point]; rfl) attended.runs (fun _ => Or.inr rfl) active
      fun _ => Or.inr rfl
  | dispatch => exact attended.dispatch stepped

end Attended

section Service

/-- The calls that are still to run, in the order in which the loop takes them. -/
def owed (σ : KPrcb Dpc Arg) : List (DpcEvent Dpc Arg) :=
  (σ.point.taken.toList ++ σ.dpcListHead).map fun dpc =>
    .ran dpc (σ.dpc dpc).systemArgument1 (σ.dpc dpc).systemArgument2

/-- The steps that the dispatch interrupt needs for the calls that are queued. -/
def stepsLeft (σ : KPrcb Dpc Arg) : Nat :=
  6 * σ.dpcListHead.length + match σ.point with
    | .locked => 2
    | .locking => 3
    | .testing => 4
    | .starting | .running _ => 5
    | .cleared | .calling _ => 6
    | .entered | .unlocking (some _) => 7
    | .outside => 8
    | .finishing => 9
    | .unlocking none => 10

omit [DecidableEq Dpc] in
theorem owed_untaken {σ : KPrcb Dpc Arg} (untaken : σ.point.taken = none) (left : owed σ ≠ []) :
    σ.dpcListHead ≠ [] := by
  rintro empty
  simp [owed, untaken, empty] at left

theorem Attended.dispatches {σ : DpcRun Dpc Arg} (attended : Attended σ)
    (stepped : ksiDispatchInterrupt σ.prcb = some (prcb, called)) :
    dpcStep σ .dispatch =
      some ⟨prcb, called.elim σ.events fun c => .ran c.1 c.2.1 c.2.2 :: σ.events⟩ := by
  rw [dpcStep, if_neg (by rw [attended.runs]; decide), stepped]
  cases called <;> rfl

theorem Attended.advance {σ : DpcRun Dpc Arg} (attended : Attended σ) (left : owed σ.prcb ≠ []) :
    ∃ action σ', (action = .accept ∨ action = .dispatch) ∧ dpcStep σ action = some σ' ∧
      (owed σ'.prcb).reverse ++ σ'.events = (owed σ.prcb).reverse ++ σ.events ∧
      stepsLeft σ'.prcb < stepsLeft σ.prcb := by
  have turn {prcb called} (stepped : ksiDispatchInterrupt σ.prcb = some (prcb, called)) :=
    attended.dispatches stepped
  cases point : σ.prcb.point with
  | outside =>
    have pending : σ.prcb.dispatchPending = true := by
      have watched := attended.attended (owed_untaken (by rw [point]; rfl) left)
      rw [point] at watched
      exact watched.resolve_right Bool.noConfusion
    refine ⟨.accept, ⟨{ σ.prcb with dispatchPending := false, point := .entered }, σ.events⟩, Or.inl rfl, ?_⟩
    simp [dpcStep, attended.runs, pending, owed, stepsLeft, point, taken]
  | cleared | testing =>
    have listed := owed_untaken (by rw [point]; rfl) left
    refine ⟨.dispatch, _, Or.inr rfl, turn (by rw [ksiDispatchInterrupt, point]), ?_⟩
    simp [owed, stepsLeft, point, taken, listed]
  | locked =>
    obtain ⟨dpc, rest, list⟩ := exists_cons_of_ne_nil (owed_untaken (by rw [point]; rfl) left)
    have same (x) : (update σ.prcb.dpc dpc { σ.prcb.dpc dpc with dpcData := false } x).systemArgument1
          = (σ.prcb.dpc x).systemArgument1 ∧
        (update σ.prcb.dpc dpc { σ.prcb.dpc dpc with dpcData := false } x).systemArgument2
          = (σ.prcb.dpc x).systemArgument2 := by
      by_cases other : x = dpc
      · subst other
        simp
      · simp [update_of_ne other]
    refine ⟨.dispatch, _, Or.inr rfl, turn (by rw [ksiDispatchInterrupt, point]; simp only [list]; rfl), ?_, ?_⟩
    · simp [owed, point, taken, list, same]
    · simp only [stepsLeft, point, list, length_cons]
      omega
  | unlocking popped =>
    cases popped with
    | none | some _ =>
      refine ⟨.dispatch, _, Or.inr rfl, turn (by rw [ksiDispatchInterrupt, point]), ?_⟩
      simp [owed, stepsLeft, point, taken]
  | entered | starting | locking | calling | running | finishing =>
    refine ⟨.dispatch, _, Or.inr rfl, turn (by rw [ksiDispatchInterrupt, point]), ?_⟩
    simp [owed, stepsLeft, point, taken]

end Service

/-- The processor is not stuck, queued calls are attended to, insertions are
answered, and the dispatch interrupt, left alone, soon runs what is queued. -/
structure DpcsKept (σ : DpcRun Dpc Arg) : Prop where
  runs : σ.prcb.spinning = false
  attended : σ.prcb.dpcListHead ≠ [] →
    σ.prcb.point.willTest = true ∨ σ.prcb.dispatchPending = true
  settled (dpc) : Settled dpc σ.events (unanswered σ.prcb dpc)
  served : ∃ actions σ', (∀ action ∈ actions, action = .accept ∨ action = .dispatch) ∧
    actions.length ≤ 6 * σ.prcb.dpcListHead.length + 10 ∧
    Run (fun σ action σ' => dpcStep σ action = some σ') σ actions σ' ∧
    σ'.events = (owed σ.prcb).reverse ++ σ.events
  accepts {dpc a b} : (σ.prcb.dpc dpc).dpcData = false → σ.prcb.point.holdsLock = false →
    ∃ prcb, ksInsertQueueDpc σ.prcb dpc a b = (prcb, true) ∧ dpc ∈ prcb.dpcListHead

theorem Attended.kept {σ : DpcRun Dpc Arg} (attended : Attended σ) : DpcsKept σ where
  runs := attended.runs
  attended some := (attended.attended some).symm
  settled := attended.settled
  served := by
    obtain ⟨actions, σ', calm, short, run, ⟨_, same⟩, done⟩ := Run.reach
      (fun τ => Attended τ ∧ (owed τ.prcb).reverse ++ τ.events = (owed σ.prcb).reverse ++ σ.events)
      (fun τ => owed τ.prcb = []) (fun τ => stepsLeft τ.prcb)
      (fun τ ⟨attended, same⟩ some => by
        obtain ⟨action, τ', calm, stepped, kept, less⟩ := attended.advance some
        have undisturbed : Undisturbed τ action := by rcases calm with rfl | rfl <;> trivial
        exact ⟨action, τ', calm, stepped, ⟨attended.step undisturbed stepped, kept.trans same⟩, less⟩)
      ⟨attended, rfl⟩
    refine ⟨actions, σ', calm, Nat.le_trans short ?_, run, ?_⟩
    · rw [stepsLeft]
      split <;> omega
    · rw [done] at same
      exact same
  accepts absent free := by
    obtain ⟨prcb, done, inserted⟩ := ksInsertQueueDpc_fresh free absent
    exact ⟨prcb, done, inserted.list.mem_iff.mpr mem_cons_self⟩

/-- In every run whose interrupts stay out of the loop's three windows, every
state reached keeps the calls. -/
theorem dpc_runs (importance : Dpc → KDpcImportance) (unset : Arg)
    (run : Run (Guarded Undisturbed fun σ action σ' => dpcStep σ action = some σ')
      ⟨initializedPrcb importance unset, []⟩ actions σ) : DpcsKept σ := by
  apply Attended.kept
  apply run.invariant fun attended stepped => attended.step stepped.1 stepped.2
  constructor
  case runs => rfl
  case requested => exact Bool.noConfusion
  case active => rfl
  case attended => exact fun some => absurd rfl some
  case data => exact fun x => ⟨Bool.noConfusion, fun member => absurd member not_mem_nil⟩
  case once => exact nodup_nil
  case apart => exact fun taken => nomatch taken
  case settled => exact fun x => .start

theorem dpc_runs_insert : ∃ σ : DpcRun Nat Nat,
    Run (Guarded Undisturbed fun σ action σ' => dpcStep σ action = some σ')
      ⟨initializedPrcb (fun _ => .medium) 0, []⟩
      [.insert 0 5 6, .accept, .dispatch, .dispatch, .dispatch, .dispatch, .insert 1 7 8, .remove 1,
        .dispatch, .dispatch, .dispatch, .dispatch] σ ∧ DpcsKept σ := by
  suffices run : ∃ σ, Run _ _ _ σ by
    obtain ⟨σ, run⟩ := run
    exact ⟨σ, run, dpc_runs _ _ run⟩
  exact ⟨_, .next ⟨⟨rfl, nofun, by decide⟩, rfl⟩ (.next ⟨trivial, rfl⟩ (.next ⟨trivial, rfl⟩
    (.next ⟨trivial, rfl⟩ (.next ⟨trivial, rfl⟩ (.next ⟨trivial, rfl⟩
    (.next ⟨⟨rfl, nofun, by decide⟩, rfl⟩ (.next ⟨fun _ => rfl, rfl⟩ (.next ⟨trivial, rfl⟩
    (.next ⟨trivial, rfl⟩ (.next ⟨trivial, rfl⟩ (.next ⟨trivial, rfl⟩ (.refl _))))))))))))⟩

omit [DecidableEq Dpc] in
theorem not_settled_twice {dpc : Dpc} :
    ¬ Settled dpc (.ran dpc a b :: .inserted dpc a b :: .inserted dpc c d :: events) last := by
  intro settled
  cases settled with
  | ran settled =>
    cases settled with
    | inserted settled =>
      cases settled with
      | other different _ => exact different rfl
    | other different _ => exact different rfl
  | other different _ => exact different rfl

/-- Three interrupts that lose a call: one inserts after the loop looked at the
list for the last time, one inserts the call that is about to run, and one wants
the lock that the loop holds. -/
theorem dpc_lost :
    (∃ σ, Run (fun σ action σ' => dpcStep σ action = some σ')
      ⟨initializedPrcb (fun _ : Nat => .medium) 0, []⟩
      [.insert 0 5 6, .accept, .dispatch, .dispatch, .dispatch, .remove 0, .dispatch, .insert 1 7 8,
        .dispatch] σ ∧ σ.prcb.point = .outside ∧ ¬ DpcsKept σ) ∧
    (∃ σ, Run (fun σ action σ' => dpcStep σ action = some σ')
      ⟨initializedPrcb (fun _ : Nat => .medium) 0, []⟩
      [.insert 0 5 6, .accept, .dispatch, .dispatch, .dispatch, .dispatch, .dispatch, .dispatch, .dispatch,
        .insert 0 7 8, .dispatch] σ ∧
      σ.events = [.ran 0 7 8, .inserted 0 7 8, .inserted 0 5 6] ∧ ¬ DpcsKept σ) ∧
    (∃ σ, Run (fun σ action σ' => dpcStep σ action = some σ')
      ⟨initializedPrcb (fun _ : Nat => .medium) 0, []⟩
      [.insert 0 5 6, .accept, .dispatch, .dispatch, .dispatch, .dispatch, .dispatch, .insert 1 7 8] σ ∧
      σ.prcb.spinning = true ∧ ¬ DpcsKept σ) := by
  refine ⟨?_, ?_, ?_⟩
  · refine ⟨_, .next rfl (.next rfl (.next rfl (.next rfl (.next rfl (.next rfl (.next rfl
      (.next rfl (.next rfl (.refl _))))))))), rfl, fun kept => ?_⟩
    exact absurd (kept.attended (cons_ne_nil 1 [])) (by decide)
  · have twice : ∃ σ, Run (fun σ action σ' => dpcStep σ action = some σ')
        ⟨initializedPrcb (fun _ : Nat => .medium) 0, []⟩
        [.insert 0 5 6, .accept, .dispatch, .dispatch, .dispatch, .dispatch, .dispatch, .dispatch, .dispatch,
          .insert 0 7 8, .dispatch] σ ∧
        σ.events = [.ran 0 7 8, .inserted 0 7 8, .inserted 0 5 6] :=
      ⟨_, .next rfl (.next rfl (.next rfl (.next rfl (.next rfl (.next rfl (.next rfl (.next rfl
        (.next rfl (.next rfl (.next rfl (.refl _))))))))))), rfl⟩
    obtain ⟨σ, run, events⟩ := twice
    exact ⟨σ, run, events, fun kept => not_settled_twice (events ▸ kept.settled 0)⟩
  · refine ⟨_, .next rfl (.next rfl (.next rfl (.next rfl (.next rfl (.next rfl (.next rfl
      (.next rfl (.refl _)))))))), rfl, fun kept => ?_⟩
    exact absurd kept.runs (by decide)

end VeaOS.Ks
