import VeaOS.Ks.KernelQueueRuns

/-! What calls of `KsRemoveQueue` return. The wake by a timer leaves status zero, so
the call cannot tell it from a wake without a reason and waits once more. -/
namespace VeaOS.Ks
open Transition Foundation Option
variable {Queue Thread Entry : Type} [DecidableEq Queue] [DecidableEq Thread] [DecidableEq Entry]

/-- The call of a thread returns `STATUS_TIMEOUT`. -/
def ReturnsTimeout (σ : QueueState Queue Thread Entry) (t : Thread) (σ' : QueueState Queue Thread Entry) : Prop :=
  (σ'.thread t).point = .outside ∧ σ'.events = σ.events

/-- The thread was woken by the timer of its call, and was handed no entry. -/
def TimedOut (σ : QueueState Queue Thread Entry) (t : Thread) : Prop :=
  (∃ queue timeout, (σ.thread t).point = .woken queue (some timeout)) ∧ (σ.thread t).waitResult = none

/-- A step does to the calls what their timeouts and the queue promise. -/
structure TimeoutKept (σ : QueueState Queue Thread Entry) (action : QueueAction Queue Thread Entry)
    (σ' : QueueState Queue Thread Entry) : Prop where
  timesOut {t : Thread} : action = .resume t → TimedOut σ t → ReturnsTimeout σ t σ'
  /-- An entry that is returned was inserted more often than it was returned before. -/
  fresh {t : Thread} {queue : Queue} {entry : Entry} {listed : Bool} :
    σ'.events = .delivered t queue entry listed :: σ.events →
      entryDeliveries (σ.view queue).log entry < entryInsertions (σ.view queue).log entry
  /-- A wait is for the timeout of its call. -/
  waits {t : Thread} {queue : Queue} {timeout : Option Int} : (σ'.thread t).point = .waiting queue timeout →
    (σ.thread t).point = .waiting queue timeout ∨ (σ.thread t).point = .testing queue timeout
  /-- A call with a timeout waits once. -/
  once {t : Thread} {queue : Queue} {timeout : Int} : (σ.thread t).point = .woken queue (some timeout) →
    (σ'.thread t).point = .woken queue (some timeout) ∨ (σ'.thread t).point = .outside

  /-- A call that was handed an entry is woken. -/
  wakes {t : Thread} {queue : Queue} {timeout : Option Int} : (σ.thread t).point = .handed queue timeout →
    (σ'.thread t).point = .handed queue timeout ∨ (σ'.thread t).point = .woken queue timeout

/-- The step does not resume a call whose timer woke it with no entry. -/
def NotTimedOut (σ : QueueState Queue Thread Entry) : QueueAction Queue Thread Entry → Prop
  | .resume t => ¬ TimedOut σ t
  | _ => True

section Service
variable {v v' : QueueView Queue Thread Entry} {t : Thread}

omit [DecidableEq Queue] [DecidableEq Entry] in
theorem ServiceStep.source {way : Departure} (stepped : ServiceStep v way v')
    (log : v'.log = .delivered t queue entry listed :: v.log) :
    entry ∈ v.queue.entryListHead ∨ ∃ u, v.role u = .handed entry := by
  have grows {event : QueueEvent Queue Thread Entry} : v.log ≠ event :: v.log :=
    fun same => List.cons_ne_self event v.log same.symm
  cases stepped with
  | enter | leave | rejoin | giveUp | wait | expire => exact absurd log grows
  | hand | append => cases (List.cons.inj log).1
  | take u queue entry rest testing list admits =>
    cases (List.cons.inj log).1
    exact .inl (list ▸ List.mem_cons_self)
  | resume u queue entry handed =>
    cases (List.cons.inj log).1
    exact .inr ⟨_, handed⟩

variable [Finite Thread]

omit [DecidableEq Queue] [DecidableEq Thread] in
theorem Served.outstanding (served : Served v)
    (source : entry ∈ v.queue.entryListHead ∨ ∃ u, v.role u = .handed entry) :
    entryDeliveries v.log entry < entryInsertions v.log entry := by
  have books := served.delivered entry
  rcases source with inside | ⟨u, handed⟩
  · have listed := List.count_pos_iff.mpr inside
    omega
  · have held : (v.role u).hasEntry entry = true := by
      rw [handed]
      exact decide_eq_true rfl
    have some := census_pos.mpr ⟨u, held⟩
    omega

end Service

section Moves
omit [DecidableEq Entry]
variable {σ σ' : QueueState Queue Thread Entry} {action : QueueAction Queue Thread Entry}

inductive PointMove (σ : QueueState Queue Thread Entry) (action : QueueAction Queue Thread Entry) (u : Thread) :
    RemovePoint Queue → RemovePoint Queue → Prop where
  | stays (point) : PointMove σ action u point point
  | enters (queue timeout) : PointMove σ action u .outside (.testing queue timeout)
  | leaves (queue timeout) : PointMove σ action u (.testing queue timeout) .outside
  | blocks (queue timeout) : PointMove σ action u (.testing queue timeout) (.waiting queue timeout)
  | hands (queue timeout) : PointMove σ action u (.waiting queue timeout) (.handed queue timeout)
  | wakes (queue timeout) : PointMove σ action u (.handed queue timeout) (.woken queue timeout)
  | expires (queue timeout) : PointMove σ action u (.waiting queue timeout) (.woken queue timeout)
  | returns (queue timeout) : PointMove σ action u (.woken queue timeout) .outside
  | again (queue timeout) : action = .resume u → (σ.thread u).waitResult = none →
      PointMove σ action u (.woken queue timeout) (.testing queue timeout)

omit [DecidableEq Queue] in
theorem moves_setThread {τ : QueueState Queue Thread Entry} {θ : QueueThread Queue Entry} {t : Thread}
    (threads : τ.thread = σ.thread) (moved : PointMove σ action t (σ.thread t).point θ.point) (u : Thread) :
    PointMove σ action u (σ.thread u).point ((τ.setThread t θ).thread u).point := by
  by_cases same : u = t
  · subst same
    rw [setThread_self]
    exact moved
  · have other : (τ.setThread t θ).thread u = σ.thread u :=
      (Function.update_of_ne same _ _).trans (congrFun threads u)
    rw [other]
    exact .stays _

theorem moves_insert (u : Thread) : PointMove σ (.insert queue entry) u (σ.thread u).point
    ((ksInsertQueue σ queue entry).thread u).point := by
  rw [ksInsertQueue]
  split
  · next waiter rest list =>
      split
      · refine moves_setThread (τ := σ) (θ := (σ.thread waiter).hand entry) rfl ?_ u
        rw [QueueThread.hand]
        cases (σ.thread waiter).point with
        | waiting queue timeout => exact .hands queue timeout
        | outside | testing queue timeout | handed queue timeout | woken queue timeout => exact .stays _
      · exact .stays _
  · exact .stays _

theorem moves_remove (outside : (σ.thread t).point = .outside) (u : Thread) :
    PointMove σ (.remove t queue timeout) u (σ.thread u).point
      (((leavePrevious σ t).setThread t
        (((leavePrevious σ t).thread t).goto (.testing queue timeout))).thread u).point := by
  have enters : PointMove σ (.remove t queue timeout) t (σ.thread t).point (.testing queue timeout) :=
    outside ▸ .enters queue timeout
  cases previous : (σ.thread t).queue with
  | none =>
    rw [leavePrevious_none previous]
    exact moves_setThread rfl enters u
  | some p =>
    have twice (θ : QueueThread Queue Entry) :
        (leavePrevious σ t).setThread t θ = (σ.setQueue p (σ.view p).release).setThread t θ := by
      rw [leavePrevious_some previous, QueueState.setThread, QueueState.setThread, QueueState.setThread,
        Function.update_idem]
    rw [twice]
    exact moves_setThread rfl enters u

theorem moves_test (testing : (σ.thread t).point = .testing queue timeout) (u : Thread) :
    PointMove σ (.test t) u (σ.thread u).point ((testQueue σ t queue timeout).thread u).point := by
  have leaves : PointMove σ (.test t) t (σ.thread t).point .outside := testing ▸ .leaves queue timeout
  have waits : PointMove σ (.test t) u (σ.thread u).point
      ((testQueue.wait σ t queue timeout (σ.queue queue) (σ.thread t)).thread u).point := by
    rw [testQueue.wait]
    split
    · exact moves_setThread rfl leaves u
    · exact moves_setThread rfl (testing ▸ .blocks queue timeout) u
  rw [testQueue]
  split
  · split
    · exact moves_setThread rfl leaves u
    · exact waits
  · exact waits

theorem moves_resume (woken : (σ.thread t).point = .woken queue timeout) (u : Thread) :
    PointMove σ (.resume t) u (σ.thread u).point ((resumeWait σ t queue timeout).thread u).point := by
  have returns : PointMove σ (.resume t) t (σ.thread t).point .outside := woken ▸ .returns queue timeout
  rw [resumeWait]
  cases result : (σ.thread t).waitResult with
  | some entry => exact moves_setThread rfl returns u
  | none =>
    simp only
    split
    · exact moves_setThread rfl returns u
    · exact moves_setThread rfl (woken ▸ .again queue timeout rfl result) u

theorem step_moves (stepped : queueStep σ action = some σ') (u : Thread) :
    PointMove σ action u (σ.thread u).point (σ'.thread u).point := by
  cases QueueMove.of_step stepped with
  | insert => exact moves_insert u
  | remove outside => exact moves_remove outside u
  | test testing => exact moves_test testing u
  | wake handed => exact moves_setThread rfl (handed ▸ .wakes _ _) u
  | expire waiting => exact moves_setThread rfl (waiting ▸ .expires _ (some _)) u
  | wild => exact .stays _
  | resume woken => exact moves_resume woken u

theorem resume_timedOut (coherent : (σ.thread t).Coherent) (timedOut : TimedOut σ t)
    (stepped : queueStep σ (.resume t) = some σ') : ∃ queue timeout,
      (σ.thread t).point = .woken queue (some timeout) ∧ (σ'.thread t).point = .testing queue (some timeout) := by
  obtain ⟨⟨queue, timeout, woken⟩, resultless⟩ := timedOut
  rw [QueueThread.Coherent, woken] at coherent
  have notTimeout : ¬ (σ.thread t).waitStatus = statusTimeout % 0x100 := by
    rw [coherent.2.2.1]
    decide
  simp only [queueStep, woken, resumeWait, resultless, if_neg notTimeout, some.injEq] at stepped
  subst stepped
  exact ⟨queue, timeout, woken, by rw [setThread_self]; rfl⟩

end Moves

section Steps
variable [Finite Thread] {σ σ' : QueueState Queue Thread Entry} {action : QueueAction Queue Thread Entry}

theorem AllServed.fresh {listed : Bool} (all : AllServed σ) (stepped : queueStep σ action = some σ')
    (events : σ'.events = .delivered t queue entry listed :: σ.events) :
    entryDeliveries (σ.view queue).log entry < entryInsertions (σ.view queue).log entry := by
  have log : (σ'.view queue).log = .delivered t queue entry listed :: (σ.view queue).log := by
    simp only [QueueState.view, events]
    exact List.filter_cons_of_pos (decide_eq_true rfl)
  rcases serves (x := queue) all.listed all.coherent stepped with same | service
  · rw [same] at log
    exact absurd log.symm (List.cons_ne_self _ _)
  · exact (all.served queue).outstanding (service.source log)

theorem AllServed.kept_iff (all : AllServed σ) (stepped : queueStep σ action = some σ') :
    TimeoutKept σ action σ' ↔ NotTimedOut σ action := by
  constructor
  · intro kept
    cases action with
    | resume t =>
      intro timedOut
      obtain ⟨queue, timeout, woken, testing⟩ := resume_timedOut (all.coherent t) timedOut stepped
      have outside := (kept.timesOut rfl timedOut).1
      rw [testing] at outside
      cases outside
    | insert | remove | test | wake | expire => trivial
  · intro heeded
    constructor
    case timesOut =>
      rintro t rfl timedOut
      exact absurd timedOut heeded
    case fresh => exact fun events => all.fresh stepped events
    case waits =>
      intro t queue timeout waiting
      have moved := step_moves stepped t
      rw [waiting] at moved
      cases moved' : (σ.thread t).point <;> rw [moved'] at moved <;> cases moved
      · exact .inr rfl
      · exact .inl rfl
    case once =>
      intro t queue timeout woken
      have moved := step_moves stepped t
      rw [woken] at moved
      generalize (σ'.thread t).point = after at moved
      cases moved with
      | stays => exact .inl rfl
      | returns => exact .inr rfl
      | again _ _ resumes resultless =>
        subst resumes
        exact absurd ⟨⟨queue, timeout, woken⟩, resultless⟩ heeded
    case wakes =>
      intro t queue timeout handed
      have moved := step_moves stepped t
      rw [handed] at moved
      generalize (σ'.thread t).point = after at moved
      cases moved with
      | stays => exact .inl rfl
      | wakes => exact .inr rfl

end Steps

/-- Every call of a run honours its timeout exactly when the run resumes none that
its timer woke with no entry. -/
theorem queue_timeout_iff [Finite Thread] {maximum : Queue → Nat}
    {actions : List (QueueAction Queue Thread Entry)} :
    Along (fun σ action => ∀ σ', queueStep σ action = some σ' → TimeoutKept σ action σ') queueStep
      (.start maximum) actions ↔
    Along NotTimedOut queueStep (.start maximum) actions := by
  refine along_good_iff (P := AllServed) (fun all stepped => all.kept_iff stepped) ?_
    (fun all _ stepped => all.step stepped) (.start maximum)
  rintro σ action all stuck
  cases action with
  | resume t =>
    rintro ⟨⟨queue, timeout, woken⟩, _⟩
    simp [queueStep, woken] at stuck
  | insert | remove | test | wake | expire => trivial

/-- A call polls, and a second one waits and is handed an entry before its timer expires. -/
theorem queue_timeout_iff_handed :
    Along (fun σ action => ∀ σ', queueStep σ action = some σ' → TimeoutKept σ action σ') queueStep
      (.start fun _ => 1 : QueueState Bool (Fin 2) Nat)
      [.remove 0 true (some 0), .test 0, .remove 1 true (some 5), .test 1, .insert true 7, .wake 1,
        .resume 1] := by
  refine queue_timeout_iff.mpr ⟨trivial, fun _ stepped => ?_⟩
  obtain rfl := some.inj stepped
  refine ⟨trivial, fun _ stepped => ?_⟩
  obtain rfl := some.inj stepped
  refine ⟨trivial, fun _ stepped => ?_⟩
  obtain rfl := some.inj stepped
  refine ⟨trivial, fun _ stepped => ?_⟩
  obtain rfl := some.inj stepped
  refine ⟨trivial, fun _ stepped => ?_⟩
  obtain rfl := some.inj stepped
  refine ⟨trivial, fun _ stepped => ?_⟩
  obtain rfl := some.inj stepped
  exact ⟨(fun timedOut => nomatch timedOut.2), fun _ _ => trivial⟩

/-- A call for 5 units of time that its timer wakes is about to wait for 5 units again. -/
theorem timeout_waits_again :
    (∃ σ, exec queueStep (.start fun _ => 1 : QueueState Bool (Fin 2) Nat)
        [.remove 0 true (some 5), .test 0, .expire 0, .resume 0, .test 0] = some σ ∧
        (σ.thread 0).point = .waiting true (some 5) ∧ σ.events.length = 0) ∧
      ¬ Along (fun σ action => ∀ σ', queueStep σ action = some σ' → TimeoutKept σ action σ') queueStep
        (.start fun _ => 1 : QueueState Bool (Fin 2) Nat)
        [.remove 0 true (some 5), .test 0, .expire 0, .resume 0] := by
  refine ⟨⟨_, rfl, rfl, rfl⟩, fun along => ?_⟩
  have kept := (((along.2 _ rfl).2 _ rfl).2 _ rfl).1 _ rfl
  have outside := (kept.timesOut rfl ⟨⟨true, 5, rfl⟩, rfl⟩).1
  cases outside

end VeaOS.Ks
