import Mathlib
import VeaOS.Foundation.Runs
import VeaOS.Ks.DispatcherSteps

/-! Who owns a mutant, over whole runs of the dispatcher. A wait that is granted
late takes every mutant of its array, also those of a `WaitAny` that were not
signalled; where no step does that, owners, signals and lists agree. -/
namespace VeaOS.Ks
open Foundation Dispatcher List Option
variable {Thread Object : Type}

section Statement
variable [DecidableEq Thread] [DecidableEq Object]

/-- A mutant is initialized while nobody owns it or waits for it; a `WaitAll` that is
granted at once lists no mutant twice; a wait that a signal grants takes no mutant but
the one that was signalled, where it is a `WaitAny`, and none twice. -/
def TakesItsOwn (s : Dispatcher Thread Object) (action : DispatcherAction Thread Object) : Prop :=
  match action with
  | .initializeMutant _ mutant _ => s.ownerThread mutant = none ∧ ∀ t i, (s.thread t).waitBlock i ≠ some mutant
  | .wait _ objects .waitAll => ∀ listed, objects.mapM id = some listed →
      (∀ o ∈ listed, 0 < s.signalState o) → (listed.filter s.isMutant).Nodup
  | action => MeetsSpare s action

omit [DecidableEq Thread] [DecidableEq Object] in
/-- Every mutant has an owner or is signalled, and is on the list of its owner, once,
and on no other one. -/
structure MutantsOwned (s : Dispatcher Thread Object) : Prop where
  signal {m : Object} : s.isMutant m → ((∃ t, s.ownerThread m = some t) ↔ s.signalState m ≤ 0)
  lists : ∃ mutantList : Thread → List Object,
    (∀ t, s.links.Ring (.mutantListHead t) ((mutantList t).map .mutantListEntry)) ∧
    ∀ t m, m ∈ mutantList t ↔ s.ownerThread m = some t

omit [DecidableEq Thread] [DecidableEq Object] in
/-- The thread waits for any object, from this action on or from an earlier one. -/
def WaitsForAny (s : Dispatcher Thread Object) (action : DispatcherAction Thread Object) (t : Thread) : Prop :=
  (∃ objects, action = .wait t objects .waitAny) ∨
    (s.thread t).state = .waiting ∧ (s.thread t).waitType = .waitAny

omit [DecidableEq Thread] [DecidableEq Object] in
/-- The object that satisfies a `WaitAny`: the first of its array that is signalled, or
the one that the action signals. -/
def satisfies (s : Dispatcher Thread Object) : DispatcherAction Thread Object → Option Object
  | .wait _ objects _ => (objects.filterMap id).find? fun o => 0 < s.signalState o
  | action => action.signals

omit [DecidableEq Thread] [DecidableEq Object] in
structure TakesOne (s : Dispatcher Thread Object) (action : DispatcherAction Thread Object)
    (s' : Dispatcher Thread Object) : Prop where
  any {t : Thread} {m : Object} : WaitsForAny s action t → s'.ownerThread m = some t →
    s.ownerThread m ≠ some t → satisfies s action = some m
  refused {t : Thread} {m : Object} {wait : Bool} : action = .releaseMutant t m wait →
    s.ownerThread m ≠ some t → s' = s

omit [DecidableEq Thread] [DecidableEq Object] in
/-- There is no mutant yet, and no thread waits. -/
structure DispatcherBooted (s : Dispatcher Thread Object) : Prop where
  waitLists (o : Object) : s.links.Ring (.waitListHead o) []
  mutantLists (t : Thread) : s.links.Ring (.mutantListHead t) []
  kinds (o : Object) : ¬ s.isMutant o
  owners (o : Object) : s.ownerThread o = none
  blocks (t : Thread) (i : Fin 3) : (s.thread t).waitBlock i = none

end Statement

variable {s s' : Dispatcher Thread Object} {t : Thread} {o m : Object}
  {waiters : Object → List (Thread × Fin 3)} {owned : Thread → List Object}

theorem DispatcherBooted.held (booted : DispatcherBooted s) : Consistent s (fun _ => []) fun _ => [] where
  waitRing := booted.waitLists
  mutantRing := booted.mutantLists
  blocked := by
    intro o t i
    simp [booted.blocks]
  owns := by
    intro t m
    simp [booted.owners]
  typed := by
    intro m t owner
    rw [booted.owners] at owner
    cases owner
  signal := fun {m} mutant => absurd mutant (booted.kinds m)
  filled := by
    intro t i
    simp [KThread.waitObjects, threadWaitObjects, booted.blocks]
  idle := fun _ => booted.blocks _

theorem Consistent.mutantsOwned (held : Consistent s waiters owned) : MutantsOwned s where
  signal := by
    intro m mutant
    rw [held.signal mutant]
    cases owner : s.ownerThread m <;> simp
  lists := ⟨owned, held.mutantRing, fun _ _ => held.owns⟩

variable [DecidableEq Thread] [DecidableEq Object]

theorem granted_owner {Lit : Dispatcher Thread Object → Prop}
    (chain : Relation.ReflTransGen (Granted Lit o) s s') (owner : s'.ownerThread m = some t) :
    s.ownerThread m = some t ∨
      (s.thread t).state = .waiting ∧ ((s.thread t).waitType = .waitAny → m = o) := by
  induction chain using Relation.ReflTransGen.head_induction_on with
  | refl => exact .inl owner
  | @head s₁ s₂ first rest ih =>
    obtain ⟨u, idx, grants, rfl⟩ := first
    have threads := satisfyThreadWait_thread idx grants.waiting
    have before : (ksiSatisfyThreadWait s₁ u idx).ownerThread m = some t → s₁.ownerThread m = some t ∨
        (s₁.thread t).state = .waiting ∧ ((s₁.thread t).waitType = .waitAny → m = o) := by
      intro owner
      rw [satisfyThreadWait_ownerThread] at owner
      split at owner
      · rename_i given
        cases owner
        refine .inr ⟨grants.waiting, fun any => ?_⟩
        have spares := grants.spares
        simp only [Spares, any] at spares
        have member := mem_filter.mpr given
        rcases spares with empty | one
        · simp [empty] at member
        · simpa [one] using member
      · exact .inl owner
    rcases ih with owner | ⟨waiting, any⟩
    · exact before owner
    · by_cases same : t = u
      · subst same
        simp [threads] at waiting
      · rw [threads, Function.update_of_ne same] at waiting any
        exact .inr ⟨waiting, any⟩

/-- A mutant that is signalled while it is tested. -/
def LitMutant (o : Object) (s : Dispatcher Thread Object) : Prop := s.isMutant o → 0 < s.signalState o

omit [DecidableEq Thread] [DecidableEq Object] in
theorem GoesOn.litMutant (goesOn : GoesOn o s) : LitMutant o s := fun mutant =>
  goesOn.resolve_left (mutant_not_notification mutant)

theorem SignalChange.litMutant {action : DispatcherAction Thread Object} {tests : Bool}
    {s₁ : Dispatcher Thread Object} (change : SignalChange s action o s₁ tests) : LitMutant o s₁ := by
  intro mutant
  rw [change.kept.2.1] at mutant
  cases change with
  | event t o wait type => rcases type with type | type <;> simp [isMutant, type] at mutant
  | semaphore t o adjustment wait type | timer o type => simp [isMutant, type] at mutant
  | mutant t o wait => simp [surrendered, setSignal_signalState]

theorem Consistent.signal_step {action : DispatcherAction Thread Object} (held : Consistent s waiters owned)
    (step : DispatcherStep s action s') (signals : action.signals = some o) (spares : MeetsSpare s action) :
    Agrees s' ∧ ∀ t m, s'.ownerThread m = some t → s.ownerThread m = some t ∨
      (s.thread t).state = .waiting ∧ ((s.thread t).waitType = .waitAny → m = o) := by
  rcases signal_cases step signals with ⟨-, rfl⟩ | ⟨fuel, s₁, s₂, tests, change, tested, noted⟩
  · exact ⟨⟨_, _, held⟩, fun _ _ => .inl⟩
  · obtain ⟨threads, -, owners⟩ := change.kept
    have kept : s'.ownerThread = s₂.ownerThread := by
      rcases noted with ⟨u, wait, rfl⟩ | rfl
      · exact (setWaitNext_rest s₂ u wait).2.1
      · rfl
    have rule : WalkRule o (LitMutant o) fun (_ : Dispatcher Thread Object) _ => True :=
      ⟨GoesOn.litMutant, id, fun _ _ => trivial, fun _ _ => trivial⟩
    obtain ⟨⟨w, l, now⟩, chain, -⟩ := rule.signalled held change (fun _ => change.litMutant)
      (fun _ => trivial) tested spares
    refine ⟨?_, fun t m owner => ?_⟩
    · rcases noted with ⟨u, wait, rfl⟩ | rfl
      · exact ⟨w, l, now.setWaitNext u wait⟩
      · exact ⟨w, l, now⟩
    · rw [kept] at owner
      rcases granted_owner chain owner with owner | given
      · exact .inl (owners m t owner)
      · rw [threads] at given
        exact .inr given

omit [DecidableEq Thread] [DecidableEq Object] in
theorem satisfying_signalled {listed : List Object} {waitType : KWaitType} {idx : Nat}
    (signalled : ksiAreObjectsSignaled s listed waitType = some idx) :
    ∀ o ∈ satisfying listed idx waitType, o ∈ listed ∧ 0 < s.signalState o := by
  intro o member
  cases waitType with
  | waitAny =>
    obtain ⟨small, found, -⟩ := List.findIdx?_eq_some_iff_getElem.mp signalled
    simp only [satisfying, List.getElem?_eq_getElem small, Option.toList_some, List.mem_singleton] at member
    subst member
    exact ⟨List.getElem_mem small, by simpa using found⟩
  | waitAll =>
    simp only [ksiAreObjectsSignaled, Option.ite_none_right_eq_some, List.all_eq_true,
      decide_eq_true_eq] at signalled
    exact ⟨member, signalled.1 o member⟩

theorem takesItsOwn_distinct {objects : List (Option Object)} {listed : List Object} {waitType : KWaitType}
    {idx : Nat} (admitted : TakesItsOwn s (.wait t objects waitType)) (all : objects.mapM id = some listed)
    (signalled : ksiAreObjectsSignaled s listed waitType = some idx) :
    ((satisfying listed idx waitType).filter s.isMutant).Nodup := by
  cases waitType with
  | waitAny =>
    have single : (satisfying listed idx .waitAny).length ≤ 1 := by
      cases chosen : listed[idx]? <;> simp [satisfying, chosen]
    exact (nodup_iff_count_le_one.mpr fun o => Nat.le_trans count_le_length single).filter _
  | waitAll => exact admitted listed all fun o member => (satisfying_signalled signalled o member).2

theorem Consistent.step {action : DispatcherAction Thread Object} (held : Consistent s waiters owned)
    (admitted : TakesItsOwn s action) (step : DispatcherStep s action s') : Agrees s' := by
  cases action with
  | initializeMutant t m initialOwner =>
    obtain ⟨-, fuel, stepped⟩ := step
    cases stepped
    exact held.initializeMutant admitted.1 admitted.2 t initialOwner
  | wait t objects waitType =>
    obtain ⟨running, fuel, stepped⟩ := step
    have waits := waitForMultipleObjects_waits s t objects waitType
    rw [some.inj stepped] at waits
    cases waits with
    | refused => exact ⟨_, _, held⟩
    | granted listed idx all signalled =>
      exact ⟨_, _, held.grantAtOnce t (takesItsOwn_distinct admitted all signalled)
        fun m member _ => (satisfying_signalled signalled m member).2⟩
    | parks listed all filled bound unsignalled =>
      obtain ⟨waiters', parked, -⟩ := held.park running bound waitType
      exact ⟨waiters', owned, parked⟩
  | resume t =>
    obtain ⟨ready, fuel, stepped⟩ := step
    cases stepped
    exact ⟨_, _, held.resume ready⟩
  | setEvent | releaseSemaphore | releaseMutant | expireTimer => exact (held.signal_step step rfl admitted).1

omit [DecidableEq Object] in
theorem find?_getElem? {p : Object → Bool} : ∀ {listed : List Object} {idx : Nat},
    listed.findIdx? p = some idx → listed[idx]? = listed.find? p
  | [], _, found => by cases found
  | o :: rest, idx, found => by
      rw [findIdx?_cons] at found
      rw [find?_cons]
      cases here : p o with
      | true =>
        simp only [here, if_true] at found
        cases found
        rfl
      | false =>
        simp only [here, Bool.false_eq_true, if_false, map_eq_some_iff] at found
        obtain ⟨j, found, rfl⟩ := found
        simpa using find?_getElem? found

omit [DecidableEq Object] in
theorem mapM_id_filterMap {objects : List (Option Object)} {listed : List Object}
    (all : objects.mapM id = some listed) : objects.filterMap id = listed := by
  induction objects generalizing listed with
  | nil => cases all; rfl
  | cons o rest ih =>
    simp only [List.mapM_cons, id_eq, Option.bind_eq_bind, Option.bind_eq_some_iff, Option.pure_def,
      Option.some.injEq] at all
    obtain ⟨x, rfl, xs, tail, rfl⟩ := all
    exact congrArg (List.cons x) (ih tail)

theorem wait_owner {objects : List (Option Object)} {waitType : KWaitType}
    (waits : Waits s t objects waitType s') (running : (s.thread t).state = .running)
    (held : Consistent s waiters owned) (u : Thread) (owner : s'.ownerThread m = some u) :
    s.ownerThread m = some u ∨ u = t ∧ (waitType = .waitAny →
      (objects.filterMap id).find? (fun o => 0 < s.signalState o) = some m) := by
  cases waits with
  | refused => exact .inl owner
  | granted listed idx all signalled =>
    rw [granted_ownerThread] at owner
    split at owner
    · rename_i given
      cases owner
      refine .inr ⟨rfl, ?_⟩
      rintro rfl
      rw [mapM_id_filterMap all, ← find?_getElem? signalled]
      exact mem_toList.mp given.1
    · exact .inl owner
  | parks listed all filled bound =>
    rw [(held.parking running bound waitType).2.2.1] at owner
    exact .inl owner

theorem Consistent.takesOne {action : DispatcherAction Thread Object} (held : Consistent s waiters owned)
    (admitted : TakesItsOwn s action) (step : DispatcherStep s action s') : TakesOne s action s' where
  any := by
    intro t m waits owner fresh
    have signalling : ∀ o, action.signals = some o → MeetsSpare s action → satisfies s action = action.signals →
        satisfies s action = some m := by
      intro o signals spares same
      rcases (held.signal_step step signals spares).2 t m owner with old | ⟨waiting, any⟩
      · exact absurd old fresh
      · have kind : (s.thread t).waitType = .waitAny := by
          rcases waits with ⟨objects, rfl⟩ | ⟨-, kind⟩
          · cases signals
          · exact kind
        rw [same, signals, any kind]
    cases action with
    | initializeMutant u mutant initialOwner =>
      obtain ⟨running, fuel, stepped⟩ := step
      cases stepped
      have other : u ≠ t := by
        rcases waits with ⟨objects, same⟩ | ⟨waiting, -⟩
        · cases same
        · rintro rfl
          rw [running] at waiting
          cases waiting
      refine absurd owner ?_
      by_cases same : m = mutant
      · subst same
        cases initialOwner <;> simp [ksInitializeMutant, other]
      · simpa [ksInitializeMutant, same] using fresh
    | wait u objects waitType =>
      obtain ⟨running, fuel, stepped⟩ := step
      have taken := waitForMultipleObjects_waits s u objects waitType
      rw [some.inj stepped] at taken
      rcases wait_owner taken running held t owner with old | ⟨rfl, any⟩
      · exact absurd old fresh
      · rcases waits with ⟨objects', same⟩ | ⟨waiting, -⟩
        · cases same
          exact any rfl
        · rw [running] at waiting
          cases waiting
    | resume u =>
      obtain ⟨-, fuel, stepped⟩ := step
      cases stepped
      refine absurd owner ?_
      simpa [finishWait, removeThreadWaitBlocks_rest, setThread] using fresh
    | setEvent u o wait => exact signalling o rfl admitted rfl
    | releaseSemaphore u o adjustment wait => exact signalling o rfl admitted rfl
    | releaseMutant u o wait => exact signalling o rfl admitted rfl
    | expireTimer o => exact signalling o rfl admitted rfl
  refused := by
    rintro t m wait rfl foreign
    obtain ⟨-, fuel, stepped⟩ := step
    simp only [dispatcherStep, ksReleaseMutant, if_pos foreign] at stepped
    split at stepped <;> exact (some.inj stepped).symm

/-- Where no step of a run takes more than its own, every mutant is owned or signalled,
on the list of its owner alone, and every step takes what satisfied it. -/
theorem mutants_owned {actions : List (DispatcherAction Thread Object)} (booted : DispatcherBooted s)
    (run : Transition.Run (Transition.Guarded TakesItsOwn DispatcherStep) s actions s') :
    MutantsOwned s' ∧ ∀ action s'', TakesItsOwn s' action → DispatcherStep s' action s'' →
      TakesOne s' action s'' := by
  obtain ⟨w, l, held⟩ := run.invariant (P := Agrees)
    (fun ⟨_, _, held⟩ step => held.step step.1 step.2) ⟨_, _, booted.held⟩
  exact ⟨held.mutantsOwned, fun _ _ => held.takesOne⟩

local instance threeObjects : NeZero 3 := ⟨by decide⟩

/-- Two mutants (0, 1), an event (2), and lists that are all empty. -/
def sampleDispatcher : Dispatcher (Fin 3) (Fin 3) where
  header := fun o => ⟨if o = 2 then .eventSynchronizationObject else .semaphoreObject, 0⟩
  ownerThread := fun _ => none
  limit := fun _ => 1
  thread := fun _ => ⟨.running, fun _ => none, .waitAny, .success, false⟩
  links := ⟨id, id⟩

theorem sampleDispatcher_booted : DispatcherBooted sampleDispatcher where
  waitLists := fun o => ⟨by simp, rfl, rfl⟩
  mutantLists := fun t => ⟨by simp, rfl, rfl⟩
  kinds := by decide
  owners := fun _ => rfl
  blocks := fun _ _ => rfl

/-- Two threads own a mutant each, and the third waits for any of the two. -/
def contended : Dispatcher (Fin 3) (Fin 3) :=
  (ksWaitForMultipleObjects
    (ksInitializeMutant (ksInitializeMutant sampleDispatcher 1 0 true) 2 1 true) 0 [some 0, some 1] .waitAny).1

/-- The release of one mutant takes the other from its owner, and leaves it on both lists. -/
theorem mutant_stolen : ∃ (s s' s'' : Dispatcher (Fin 3) (Fin 3)) (actions : List (DispatcherAction (Fin 3) (Fin 3)))
    (action : DispatcherAction (Fin 3) (Fin 3)), DispatcherBooted s ∧
      Transition.Run DispatcherStep s actions s' ∧ DispatcherStep s' action s'' ∧
      ¬ TakesOne s' action s'' ∧ ¬ MutantsOwned s'' := by
  have stolen : (dispatcherStep 5 contended (.releaseMutant 1 0 false)).map
      (fun s => (s.ownerThread 1, s.links.flink (.mutantListHead 2))) =
        some (some 0, .mutantListEntry 1) := by decide
  obtain ⟨s'', stepped, both⟩ := map_eq_some_iff.mp stolen
  obtain ⟨owner, entry⟩ := Prod.mk.inj both
  refine ⟨sampleDispatcher, contended, s'', [.initializeMutant 1 0 true, .initializeMutant 2 1 true,
    .wait 0 [some 0, some 1] .waitAny], .releaseMutant 1 0 false, sampleDispatcher_booted, ?_,
    ⟨rfl, 5, stepped⟩, fun one => ?_, fun mutants => ?_⟩
  · exact .next ⟨rfl, 0, rfl⟩ (.next ⟨rfl, 0, rfl⟩ (.single ⟨rfl, 0, rfl⟩))
  · have only := one.any (t := 0) (m := 1) (.inr ⟨by decide, by decide⟩) owner (by decide)
    exact absurd only (by decide)
  · obtain ⟨mutantList, rings, owns⟩ := mutants.lists
    have first := (rings 2).flink_head
    cases held : mutantList 2 with
    | nil =>
      simp only [held, entry] at first
      cases first
    | cons m rest =>
      simp only [held, entry, map_cons, cons_append, head_cons,
        ListEntry.mutantListEntry.injEq] at first
      have listed := (owns 2 1).mp (by simp [held, first])
      rw [owner] at listed
      cases listed

/-- Two threads own a mutant each, and the third waits for one of them or the event. -/
def awaited : Dispatcher (Fin 3) (Fin 3) :=
  (ksWaitForMultipleObjects
    (ksInitializeMutant (ksInitializeMutant sampleDispatcher 1 0 true) 2 1 true) 0 [some 0, some 2] .waitAny).1

/-- The release of the mutant hands it to the thread that waits. -/
theorem mutants_owned_contended : ∃ s : Dispatcher (Fin 3) (Fin 3),
    MutantsOwned s ∧ s.ownerThread 0 = some 0 ∧ s.ownerThread 1 = some 2 := by
  have handed : (dispatcherStep 5 awaited (.releaseMutant 1 0 false)).map
      (fun s => (s.ownerThread 0, s.ownerThread 1)) = some (some 0, some 2) := by decide
  obtain ⟨s, stepped, owners⟩ := map_eq_some_iff.mp handed
  obtain ⟨first, second⟩ := Prod.mk.inj owners
  have spares : MeetsSpare awaited (.releaseMutant 1 0 false) := by
    intro o s₁ tests change _ listed _ t _
    cases change with
    | mutant t' o wait owner kind =>
      rcases (by omega : t = 0 ∨ t = 1 ∨ t = 2) with rfl | rfl | rfl
      · exact .inr rfl
      · exact .inl rfl
      · exact .inl rfl
  have run : Transition.Run (Transition.Guarded TakesItsOwn DispatcherStep) sampleDispatcher
      [.initializeMutant 1 0 true, .initializeMutant 2 1 true, .wait 0 [some 0, some 2] .waitAny,
        .releaseMutant 1 0 false] s :=
    .next ⟨⟨by decide, by decide⟩, rfl, 0, rfl⟩ <| .next ⟨⟨by decide, by decide⟩, rfl, 0, rfl⟩ <|
      .next ⟨meetsSpare_wait, rfl, 0, rfl⟩ <| .single ⟨spares, rfl, 5, stepped⟩
  exact ⟨s, (mutants_owned sampleDispatcher_booted run).1, first, second⟩

end VeaOS.Ks
