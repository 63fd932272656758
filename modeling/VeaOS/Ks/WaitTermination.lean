import VeaOS.Ks.MutantOwnership
import VeaOS.Ks.WaitLists

/-! Where `KsWaitTest` comes to an end. It keeps the entry that follows before it serves
a thread; where that entry is the thread's own, it is linked to itself by then. -/
namespace VeaOS.Ks
open Foundation Dispatcher List
variable {Thread Object : Type} [DecidableEq Thread] [DecidableEq Object]

/-- No waiter that is served while the test goes on has another block on the list. The
waiters are in the order of the list, each with the signals that those in front leave it. -/
def ServesOnce (object : Object) : Dispatcher Thread Object → List Thread → Prop
  | _, [] => True
  | s, t :: rest =>
    match ksiThreadWaitIsSatisfied s t object with
    | none => ServesOnce object s rest
    | some signaledIndex =>
      let s := ksiConsumeObjectSignals s (s.thread t).waitObjects (s.thread t).waitType signaledIndex
      GoesOn object s → t ∉ rest ∧ ServesOnce object s rest

section Signals
variable {s s' : Dispatcher Thread Object} {t : Thread} {o : Object} {ts : List Thread} {idx : Nat}

omit [DecidableEq Thread] [DecidableEq Object] in
theorem goesOn_congr (headers : s'.header = s.header) : GoesOn o s' ↔ GoesOn o s := by
  rw [GoesOn, GoesOn, isNotification, isNotification, signalState, signalState, headers]

omit [DecidableEq Thread] in
theorem satisfied_congr (headers : s'.header = s.header) (same : s'.thread t = s.thread t) :
    ksiThreadWaitIsSatisfied s' t o = ksiThreadWaitIsSatisfied s t o := by
  have signals : s'.signalState = s.signalState := funext fun x => by rw [signalState, signalState, headers]
  rw [ksiThreadWaitIsSatisfied, ksiThreadWaitIsSatisfied, same, signals]

omit [DecidableEq Thread] in
theorem consume_congr (headers : s'.header = s.header) (objects : List Object) :
    (s'.consume objects).header = (s.consume objects).header := by
  obtain ⟨header, ownerThread, limit, thread, links⟩ := s'
  subst headers
  rfl

omit [DecidableEq Thread] in
theorem servesOnce_congr (headers : s'.header = s.header) (threads : ∀ t ∈ ts, s'.thread t = s.thread t) :
    ServesOnce o s' ts ↔ ServesOnce o s ts := by
  induction ts generalizing s s' with
  | nil => exact Iff.rfl
  | cons t rest ih =>
    have own := threads t mem_cons_self
    have others : ∀ u ∈ rest, s'.thread u = s.thread u :=
      fun u member => threads u (mem_cons_of_mem _ member)
    rw [ServesOnce, ServesOnce, satisfied_congr headers own]
    cases ksiThreadWaitIsSatisfied s t o with
    | none => exact ih headers others
    | some idx =>
      have consumed : (ksiConsumeObjectSignals s' (s'.thread t).waitObjects (s'.thread t).waitType idx).header =
          (ksiConsumeObjectSignals s (s.thread t).waitObjects (s.thread t).waitType idx).header := by
        rw [own, consumeObjectSignals_eq, consumeObjectSignals_eq]
        exact consume_congr headers _
      have threads' : ∀ u ∈ rest,
          (ksiConsumeObjectSignals s' (s'.thread t).waitObjects (s'.thread t).waitType idx).thread u =
            (ksiConsumeObjectSignals s (s.thread t).waitObjects (s.thread t).waitType idx).thread u := by
        rw [consumeObjectSignals_eq, consumeObjectSignals_eq]
        exact others
      exact imp_congr (goesOn_congr consumed) (and_congr_right fun _ => ih consumed threads')

theorem satisfy_signals : (ksiSatisfyThreadWait s t idx).header =
    (ksiConsumeObjectSignals s (s.thread t).waitObjects (s.thread t).waitType idx).header := by
  rw [satisfyThreadWait_header, consumeObjectSignals_eq]
  rfl

end Signals

section Walk
variable {s s' : Dispatcher Thread Object} {t : Thread} {i : Fin 3} {o : Object} {idx fuel : Nat}
  {waiters : Object → List (Thread × Fin 3)} {pre post : List (Thread × Fin 3)}

namespace WaitLists

theorem walk_pass (lists : WaitLists s waiters) (place : waiters o = pre ++ (t, i) :: post)
    (unsatisfied : ksiThreadWaitIsSatisfied s t o = none) (fuel : Nat) :
    waitTestLoop o (fuel + 1) (.waitListEntry t i) s = waitTestLoop o fuel (entryAt o post) s := by
  rw [waitTestLoop_pass fun _ => unsatisfied, flink_next (lists.ring o) place]

theorem walk_serves (lists : WaitLists s waiters) (place : waiters o = pre ++ (t, i) :: post)
    (satisfied : ksiThreadWaitIsSatisfied s t o = some idx) (fuel : Nat) :
    (¬ GoesOn o (ksiSatisfyThreadWait s t idx) →
      waitTestLoop o (fuel + 1) (.waitListEntry t i) s = some (ksiSatisfyThreadWait s t idx)) ∧
    (GoesOn o (ksiSatisfyThreadWait s t idx) → waitTestLoop o (fuel + 1) (.waitListEntry t i) s =
      waitTestLoop o fuel (entryAt o post) (ksiSatisfyThreadWait s t idx)) := by
  have waiting : (s.thread t).state = .waiting := lists.waiting (show (t, i) ∈ waiters o by simp [place])
  constructor
  · intro stops
    exact waitTestLoop_stops waiting satisfied stops i fuel
  · intro goesOn
    rw [waitTestLoop_goesOn waiting satisfied goesOn, flink_next (lists.ring o) place]

theorem walk_stuck (lists : WaitLists s waiters) (place : waiters o = pre ++ (t, i) :: post)
    (satisfied : ksiThreadWaitIsSatisfied s t o = some idx) (again : t ∈ post.map Prod.fst) (fuel : Nat) :
    waitTestLoop o fuel (entryAt o post) (ksiSatisfyThreadWait s t idx) = none := by
  have waiting : (s.thread t).state = .waiting := lists.waiting (show (t, i) ∈ waiters o by simp [place])
  have grouped := lists.grouped o
  rw [place, map_append, map_cons] at grouped
  obtain ⟨more, next⟩ := grouped.next again
  cases post with
  | nil => cases next
  | cons b rest =>
    obtain ⟨u, j⟩ := b
    obtain rfl : u = t := (cons.inj next).1
    have used : (s.thread u).waitBlock j ≠ none := by
      rw [lists.blocked.mp (show (u, j) ∈ waiters o by simp [place])]
      nofun
    refine waitTestLoop_stuck (lists.satisfy_flink satisfied used) ?_ fuel
    simp [satisfyThreadWait_thread idx waiting]

omit [DecidableEq Object] in
theorem place_after (place : waiters o = pre ++ (t, i) :: post) (once : t ∉ post.map Prod.fst) :
    ((waiters o).filter fun b => b.1 ≠ t) = (pre.filter fun b => b.1 ≠ t) ++ post := by
  have kept : (post.filter fun b => b.1 ≠ t) = post := by
    refine filter_eq_self.mpr fun b member => decide_eq_true fun same => once ?_
    exact mem_map.mpr ⟨b, member, same⟩
  rw [place, filter_append, filter_cons_of_neg (by simp), kept]

theorem walk_returns_iff (lists : WaitLists s waiters) (place : waiters o = pre ++ post) :
    (∃ fuel s', waitTestLoop o fuel (entryAt o post) s = some s') ↔ ServesOnce o s (post.map Prod.fst) := by
  induction post generalizing s waiters pre with
  | nil =>
    refine iff_of_true ⟨1, s, ?_⟩ trivial
    rw [entryAt, map_nil, headD_nil, waitTestLoop_head]
  | cons b post ih =>
    obtain ⟨t, i⟩ := b
    have entry : entryAt o ((t, i) :: post) = .waitListEntry t i := rfl
    have passed : waiters o = (pre ++ [(t, i)]) ++ post := by simp [place]
    have positive : (∃ fuel s', waitTestLoop o fuel (.waitListEntry t i) s = some s') ↔
        ∃ fuel s', waitTestLoop o (fuel + 1) (.waitListEntry t i) s = some s' := by
      constructor
      · rintro ⟨_ | fuel, s', ended⟩
        · cases ended
        · exact ⟨fuel, s', ended⟩
      · rintro ⟨fuel, s', ended⟩
        exact ⟨fuel + 1, s', ended⟩
    rw [entry, positive, map_cons, ServesOnce]
    cases satisfied : ksiThreadWaitIsSatisfied s t o with
    | none =>
      simp only [lists.walk_pass place satisfied]
      exact ih lists passed
    | some idx =>
      have waiting : (s.thread t).state = .waiting := lists.waiting (show (t, i) ∈ waiters o by simp [place])
      have same : GoesOn o (ksiSatisfyThreadWait s t idx) ↔ GoesOn o (ksiConsumeObjectSignals s
          (s.thread t).waitObjects (s.thread t).waitType idx) := goesOn_congr satisfy_signals
      dsimp only
      rw [← same]
      by_cases goesOn : GoesOn o (ksiSatisfyThreadWait s t idx)
      · simp only [fun fuel => (lists.walk_serves place satisfied fuel).2 goesOn]
        rw [forall_prop_of_true goesOn]
        by_cases again : t ∈ post.map Prod.fst
        · simp only [lists.walk_stuck place satisfied again]
          refine iff_of_false ?_ fun both => both.1 again
          rintro ⟨_, _, ended⟩
          cases ended
        · rw [and_iff_right again, ih (lists.satisfy satisfied) (place_after place again)]
          refine servesOnce_congr satisfy_signals fun u member => ?_
          have other : u ≠ t := fun same => again (same ▸ member)
          rw [satisfyThreadWait_thread idx waiting, Function.update_of_ne other, consumeObjectSignals_eq]
          rfl
      · have ended := (lists.walk_serves place satisfied 0).1 goesOn
        exact iff_of_true ⟨0, _, ended⟩ fun goes => absurd goes goesOn

theorem walk_keeps (lists : WaitLists s waiters) (place : waiters o = pre ++ post)
    (tested : waitTestLoop o fuel (entryAt o post) s = some s') : ∃ waiters', WaitLists s' waiters' := by
  induction fuel generalizing s waiters pre post with
  | zero => cases tested
  | succ fuel ih =>
    cases post with
    | nil =>
      rw [entryAt, map_nil, headD_nil, waitTestLoop_head] at tested
      cases tested
      exact ⟨waiters, lists⟩
    | cons b post =>
      obtain ⟨t, i⟩ := b
      have entry : entryAt o ((t, i) :: post) = .waitListEntry t i := rfl
      have passed : waiters o = (pre ++ [(t, i)]) ++ post := by simp [place]
      rw [entry] at tested
      cases satisfied : ksiThreadWaitIsSatisfied s t o with
      | none =>
        rw [lists.walk_pass place satisfied] at tested
        exact ih lists passed tested
      | some idx =>
        by_cases goesOn : GoesOn o (ksiSatisfyThreadWait s t idx)
        · rw [(lists.walk_serves place satisfied fuel).2 goesOn] at tested
          by_cases again : t ∈ post.map Prod.fst
          · rw [lists.walk_stuck place satisfied again] at tested
            cases tested
          · exact ih (lists.satisfy satisfied) (place_after place again) tested
        · rw [(lists.walk_serves place satisfied fuel).1 goesOn] at tested
          cases tested
          exact ⟨_, lists.satisfy satisfied⟩

theorem waitTest_returns_iff (lists : WaitLists s waiters) :
    (∃ fuel s', ksWaitTest fuel s o = some s') ↔ ServesOnce o s ((waiters o).map Prod.fst) := by
  simp only [ksWaitTest, flink_first (lists.ring o)]
  exact lists.walk_returns_iff (nil_append _).symm

theorem waitTest_keeps (lists : WaitLists s waiters) (tested : ksWaitTest fuel s o = some s') :
    ∃ waiters', WaitLists s' waiters' := by
  rw [ksWaitTest, flink_first (lists.ring o)] at tested
  exact lists.walk_keeps (nil_append _).symm tested

end WaitLists
end Walk

section Runs
variable {s s' s₀ s₁ : Dispatcher Thread Object} {t : Thread} {o : Object}
  {action : DispatcherAction Thread Object} {waiters : Object → List (Thread × Fin 3)}

/-- A mutant is initialized while nobody waits for it. -/
def InitializesUnused (s : Dispatcher Thread Object) : DispatcherAction Thread Object → Prop
  | .initializeMutant _ mutant _ => ∀ t i, (s.thread t).waitBlock i ≠ some mutant
  | _ => True

omit [DecidableEq Thread] [DecidableEq Object] in
theorem DispatcherBooted.waitLists_empty (booted : DispatcherBooted s) : WaitLists s fun _ => [] where
  held :=
    { waitRing := fun o => by
        refine (booted.waitLists o).congr (fun x member => ?_) fun x member => ?_
        all_goals
          obtain rfl := mem_singleton.mp member
          rfl
      mutantRing := fun t => ⟨nodup_singleton _, rfl, rfl⟩
      blocked := booted.held.blocked
      owns := fun {t m} => iff_of_false not_mem_nil nofun
      typed := nofun
      signal := fun {m} mutant => by simp at mutant
      filled := booted.held.filled
      idle := booted.held.idle }
  closed := by
    intro x inside
    cases x with
    | mutantListHead t =>
      have next : s.links.flink (.mutantListHead t) = .mutantListHead t := (booted.mutantLists t).linked.1
      have last : s.links.blink (.mutantListHead t) = .mutantListHead t := (booted.mutantLists t).linked.2
      rw [next, last]
      exact ⟨trivial, trivial⟩
    | mutantListEntry m => exact absurd inside (booted.kinds m)
    | waitListHead | waitListEntry => exact inside.elim
  grouped := fun _ => Grouped.nil

theorem WaitLists.change {tests : Bool} (lists : WaitLists s waiters) (change : SignalChange s action o s₁ tests) :
    WaitLists s₁ waiters := by
  cases change with
  | event => exact lists.setSignal o 1
  | semaphore => exact lists.setSignal o _
  | timer => exact lists.setSignal o 1
  | mutant t o wait owner kind => exact lists.surrender kind

theorem WaitLists.signalled (lists : WaitLists s waiters) (step : DispatcherStep s action s')
    (signals : action.signals = some o) : ∃ waiters', WaitLists s' waiters' := by
  rcases signal_cases step signals with ⟨-, rfl⟩ | ⟨fuel, s₁, s₂, tests, change, tested, last⟩
  · exact ⟨waiters, lists⟩
  · have now := lists.change change
    have after : ∃ waiters', WaitLists s₂ waiters' := by
      split at tested
      · rw [testWaiters] at tested
        split at tested
        · cases tested
          exact ⟨waiters, now⟩
        · exact now.waitTest_keeps tested
      · cases tested
        exact ⟨waiters, now⟩
    obtain ⟨waiters', after⟩ := after
    rcases last with ⟨t, wait, rfl⟩ | rfl
    · exact ⟨waiters', after.setWaitNext t wait⟩
    · exact ⟨waiters', after⟩

theorem WaitLists.step (lists : WaitLists s waiters) (unused : InitializesUnused s action)
    (step : DispatcherStep s action s') : ∃ waiters', WaitLists s' waiters' := by
  cases action with
  | initializeMutant t m initialOwner =>
    obtain ⟨-, fuel, stepped⟩ := step
    cases stepped
    exact ⟨waiters, lists.initializeMutant unused t initialOwner⟩
  | wait t objects waitType =>
    obtain ⟨running, fuel, stepped⟩ := step
    have waits := waitForMultipleObjects_waits s t objects waitType
    rw [Option.some.inj stepped] at waits
    cases waits with
    | refused => exact ⟨waiters, lists⟩
    | granted listed idx all signalled => exact ⟨waiters, lists.grantAtOnce t _⟩
    | parks listed all filled bound unsignalled => exact lists.park running bound waitType
  | resume t =>
    obtain ⟨ready, fuel, stepped⟩ := step
    cases stepped
    exact ⟨_, lists.resume ready⟩
  | setEvent | releaseSemaphore | releaseMutant | expireTimer => exact lists.signalled step rfl

/-- What the waiters of an object are tested in: it got a signal, or its owner gave it up. -/
inductive Signalled (s : Dispatcher Thread Object) (o : Object) : Dispatcher Thread Object → Prop where
  | sets (signalState : Int) : Signalled s o (s.setSignal o signalState)
  | surrenders : s.isMutant o → Signalled s o (surrendered s o)

omit [DecidableEq Thread] [DecidableEq Object] in
/-- No wait block of a thread that was woken is in use, or on any list. -/
def LeavesLists (s s' : Dispatcher Thread Object) : Prop :=
  ∃ waiters : Object → List (Thread × Fin 3),
    (∀ o, s'.links.Ring (.waitListHead o) ((waiters o).map waitEntry)) ∧
    ∀ t, (s.thread t).state = .waiting → (s'.thread t).state ≠ .waiting →
      ∀ i, (s'.thread t).waitBlock i = none ∧ ∀ o, (t, i) ∉ waiters o

omit [DecidableEq Thread] [DecidableEq Object] in
theorem WaitLists.leaves (lists : WaitLists s' waiters) (s : Dispatcher Thread Object) : LeavesLists s s' := by
  refine ⟨waiters, lists.ring, fun t _ awake i => ⟨lists.held.idle awake i, fun o inside => ?_⟩⟩
  exact awake (lists.waiting inside)

/-- In whatever state of a run an object is signalled, the test of its waiters ends with
the woken threads off all lists exactly where it serves every thread by its last block. -/
theorem wait_test_iff {actions : List (DispatcherAction Thread Object)} (booted : DispatcherBooted s₀)
    (run : Transition.Run (Transition.Guarded InitializesUnused DispatcherStep) s₀ actions s)
    (signalled : Signalled s o s₁) :
    ∃ waiters : List (Thread × Fin 3), s₁.links.Ring (.waitListHead o) (waiters.map waitEntry) ∧
      ((∃ fuel s', ksWaitTest fuel s₁ o = some s' ∧ LeavesLists s₁ s') ↔
        ServesOnce o s₁ (waiters.map Prod.fst)) := by
  obtain ⟨waiters, lists⟩ : ∃ waiters, WaitLists s waiters :=
    run.invariant (P := fun s => ∃ waiters, WaitLists s waiters)
      (fun before step => before.elim fun _ lists => lists.step step.1 step.2) ⟨_, booted.waitLists_empty⟩
  have now : WaitLists s₁ waiters := by
    cases signalled with
    | sets signalState => exact lists.setSignal o signalState
    | surrenders mutant => exact lists.surrender mutant
  refine ⟨waiters o, now.ring o, ?_⟩
  rw [← now.waitTest_returns_iff]
  constructor
  · rintro ⟨fuel, s', tested, -⟩
    exact ⟨fuel, s', tested⟩
  · rintro ⟨fuel, s', tested⟩
    obtain ⟨waiters', after⟩ := now.waitTest_keeps tested
    exact ⟨fuel, s', tested, after.leaves s₁⟩

end Runs

/-- Two notification events that are not set. -/
def twoEvents : Dispatcher (Fin 2) (Fin 2) where
  header := fun _ => ⟨.eventNotificationObject, 0⟩
  ownerThread := fun _ => none
  limit := fun _ => 1
  thread := fun _ => ⟨.running, fun _ => none, .waitAny, .success, false⟩
  links := ⟨id, id⟩

theorem twoEvents_booted : DispatcherBooted twoEvents where
  waitLists := fun o => ⟨by simp, rfl, rfl⟩
  mutantLists := fun t => ⟨by simp, rfl, rfl⟩
  kinds := by decide
  owners := fun _ => rfl
  blocks := fun _ _ => rfl

/-- Thread 0 waits for any of both events, thread 1 for the second one, which is set. -/
theorem wait_test_iff_both :
    ∃ (s : Dispatcher (Fin 2) (Fin 2)) (fuel : Nat) (s' : Dispatcher (Fin 2) (Fin 2)),
      Transition.Run (Transition.Guarded InitializesUnused DispatcherStep) twoEvents
        [.wait 0 [some 0, some 1] .waitAny, .wait 1 [some 1] .waitAny] s ∧
      ksWaitTest fuel (s.setSignal 1 1) 1 = some s' ∧ LeavesLists (s.setSignal 1 1) s' := by
  have run : Transition.Run (Transition.Guarded InitializesUnused DispatcherStep) twoEvents
      [.wait 0 [some 0, some 1] .waitAny, .wait 1 [some 1] .waitAny] (_ : Dispatcher (Fin 2) (Fin 2)) :=
    .next ⟨trivial, rfl, 0, rfl⟩ (.single ⟨trivial, rfl, 0, rfl⟩)
  obtain ⟨waiters, ring, returns⟩ := wait_test_iff (o := 1) twoEvents_booted run (.sets 1)
  have both : waiters = [(0, 1), (1, 0)] := by
    refine map_injective_iff.mpr (fun _ _ => waitEntry_injective) (ring.unique ?_)
    exact ⟨by decide, ⟨rfl, rfl⟩, ⟨rfl, rfl⟩, rfl, rfl⟩
  subst both
  obtain ⟨fuel, s', tested, leaves⟩ := returns.mpr fun _ => ⟨by decide, fun _ => ⟨by decide, trivial⟩⟩
  exact ⟨_, fuel, s', run, tested, leaves⟩

/-- What thread 0 leaves when it waits for any of two events, which are the same one. -/
def waitingTwice : Dispatcher (Fin 2) (Fin 2) := (ksWaitForMultipleObjects twoEvents 0 [some 0, some 0] .waitAny).1

/-- Setting the event of `waitingTwice` does not end. -/
theorem wait_test_hangs :
    Transition.Run (Transition.Guarded InitializesUnused DispatcherStep) twoEvents
        [.wait 0 [some 0, some 0] .waitAny] waitingTwice ∧
      Callable waitingTwice (.setEvent 1 0 false) ∧
      (∀ fuel, dispatcherStep fuel waitingTwice (.setEvent 1 0 false) = none) ∧
      ¬ ∃ fuel s', ksWaitTest fuel (waitingTwice.setSignal 0 1) 0 = some s' ∧
        LeavesLists (waitingTwice.setSignal 0 1) s' := by
  have loose : (ksiSatisfyThreadWait (waitingTwice.setSignal 0 1) 0 0).links.flink (.waitListEntry 0 1) =
    .waitListEntry 0 1 := by decide
  have awake : ((ksiSatisfyThreadWait (waitingTwice.setSignal 0 1) 0 0).thread 0).state ≠ .waiting := by decide
  have endless (fuel : Nat) : ksWaitTest fuel (waitingTwice.setSignal 0 1) 0 = none := by
    cases fuel with
    | zero => rfl
    | succ fuel => exact waitTestLoop_stuck loose awake fuel
  refine ⟨.single ⟨trivial, rfl, 0, rfl⟩, .inl rfl, fun fuel => ?_, ?_⟩
  · have step : dispatcherStep fuel waitingTwice (.setEvent 1 0 false) =
        ((ksWaitTest fuel (waitingTwice.setSignal 0 1) 0).map fun s => (s.setWaitNext 1 false, (0 : Int))).map
          Prod.fst := rfl
    rw [step, endless]
    rfl
  · rintro ⟨fuel, s', tested, -⟩
    rw [endless] at tested
    cases tested

end VeaOS.Ks
