import VeaOS.Foundation.Runs
import VeaOS.Ks.QueueService

/-! Runs of any number of queues. Each step is a step of the service of every
queue it concerns and none of the others, so the books of each queue are kept. -/
namespace VeaOS.Ks
open Transition Foundation Function
variable {Queue Thread Entry : Type} [DecidableEq Queue] [DecidableEq Thread] [DecidableEq Entry]

def QueueEvent.queue : QueueEvent Queue Thread Entry → Queue
  | .inserted queue _ _ | .delivered _ queue _ _ => queue

namespace QueueThread

def role (t : QueueThread Queue Entry) (x : Queue) : QueueRole Entry :=
  if t.queue = some x then .running
  else match t.point with
    | .outside => .away
    | .testing queue _ => if queue = x then .testing else .away
    | .waiting queue _ => if queue = x then .waiting else .away
    | .handed queue _ | .woken queue _ =>
      if queue = x then
        match t.waitResult with
        | some entry => .handed entry
        | none => .away
      else .away

/-- A thread that is in `KsRemoveQueue` runs for no queue; its wait block is set
while it waits and cleared when it is handed an entry or woken. -/
def Coherent (t : QueueThread Queue Entry) : Prop :=
  match t.point with
  | .outside => True
  | .testing _ _ => t.queue = none
  | .waiting queue _ => t.queue = none ∧ t.object = some queue ∧ t.waitResult = none
  | .handed _ _ | .woken _ _ => t.queue = none ∧ t.object = none ∧ t.waitStatus = 0 ∧
      (t.waitResult ≠ none → t.waitKey = 1)

variable {t : QueueThread Queue Entry} {x q : Queue}

section Roles
omit [DecidableEq Entry]

theorem role_outside (point : t.point = .outside) :
    t.role x = if t.queue = some x then .running else .away := by
  simp only [role, point]

theorem role_testing (queue : t.queue = none) (point : t.point = .testing q timeout) :
    t.role x = if q = x then .testing else .away := by
  simp only [role, queue, point, reduceCtorEq, if_false]

theorem role_waiting (queue : t.queue = none) (point : t.point = .waiting q timeout) :
    t.role x = if q = x then .waiting else .away := by
  simp only [role, queue, point, reduceCtorEq, if_false]

theorem role_handed (queue : t.queue = none) (point : t.point = .woken q timeout)
    (result : t.waitResult = some entry) : t.role x = if q = x then .handed entry else .away := by
  simp only [role, queue, point, result, reduceCtorEq, if_false]

theorem role_expired (queue : t.queue = none) (point : t.point = .woken q timeout)
    (result : t.waitResult = none) : t.role x = .away := by
  simp only [role, queue, point, result, reduceCtorEq, if_false, ite_self]

theorem role_hand (queue : t.queue = none) (point : t.point = .waiting q timeout) :
    (t.hand entry).role x = if q = x then .handed entry else .away := by
  simp only [role, hand, queue, point, reduceCtorEq, if_false]

theorem role_wake (queue : t.queue = none) (point : t.point = .handed q timeout) :
    (t.goto (.woken q timeout)).role x = t.role x := by
  simp only [role, goto, queue, point, reduceCtorEq, if_false]

theorem role_run : ((t.setQueue (some q)).goto .outside).role x = if q = x then .running else .away := by
  simp only [role, goto, setQueue, Option.some.injEq]

theorem role_goto_outside (queue : t.queue = none) : (t.goto .outside).role x = .away := by
  simp only [role, goto, queue, reduceCtorEq, if_false]

theorem role_goto_testing (queue : t.queue = none) :
    (t.goto (.testing q timeout)).role x = if q = x then .testing else .away :=
  role_testing queue rfl

end Roles

omit [DecidableEq Entry] in
theorem waiting_of_role (waiting : t.role x = .waiting) : ∃ timeout, t.point = .waiting x timeout := by
  rw [role] at waiting
  split at waiting
  · cases waiting
  split at waiting
  next => cases waiting
  next => split at waiting <;> cases waiting
  next queue timeout point =>
    split at waiting
    next same => exact ⟨timeout, by rw [point, same]⟩
    next => cases waiting
  all_goals
    split at waiting
    next => split at waiting <;> cases waiting
    next => cases waiting

end QueueThread

/-- One queue of the system, as its clients see it. -/
def QueueState.view (σ : QueueState Queue Thread Entry) (x : Queue) : QueueView Queue Thread Entry where
  queue := σ.queue x
  role := fun t => (σ.thread t).role x
  log := σ.events.filter (·.queue = x)

section Views
variable (σ : QueueState Queue Thread Entry) (x : Queue)

omit [DecidableEq Queue] [DecidableEq Entry] in
theorem setThread_self : (σ.setThread t θ).thread t = θ := update_self ..

omit [DecidableEq Entry] in
theorem view_setThread : (σ.setThread t θ).view x = (σ.view x).setRole t (θ.role x) := by
  have roles : (fun u => (update σ.thread t θ u).role x) =
      update (fun u => (σ.thread u).role x) t (θ.role x) := by
    funext u
    by_cases same : u = t
    · rw [same, update_self, update_self]
    · rw [update_of_ne same, update_of_ne same]
  exact congrArg (fun role => QueueView.mk (σ.queue x) role (σ.events.filter (·.queue = x))) roles

omit [DecidableEq Thread] [DecidableEq Entry] in
theorem view_setQueue_self : (σ.setQueue x q).view x = (σ.view x).setQueue q := by
  simp only [QueueState.view, QueueState.setQueue, QueueView.setQueue, update_self]

omit [DecidableEq Thread] [DecidableEq Entry] in
theorem view_setQueue_other (other : x ≠ y) : (σ.setQueue y q).view x = σ.view x := by
  simp only [QueueState.view, QueueState.setQueue, update_of_ne other]

omit [DecidableEq Thread] [DecidableEq Entry] in
theorem view_inserted : (σ.record (.inserted q e listed)).view x =
    if q = x then (σ.view x).record (.inserted q e listed) else σ.view x := by
  by_cases here : q = x
  · simp [QueueState.view, QueueState.record, QueueView.record, QueueEvent.queue, here]
  · simp [QueueState.view, QueueState.record, QueueEvent.queue, here]

omit [DecidableEq Thread] [DecidableEq Entry] in
theorem view_delivered : (σ.record (.delivered t q e listed)).view x =
    if q = x then (σ.view x).record (.delivered t q e listed) else σ.view x := by
  by_cases here : q = x
  · simp [QueueState.view, QueueState.record, QueueView.record, QueueEvent.queue, here]
  · simp [QueueState.view, QueueState.record, QueueEvent.queue, here]

omit [DecidableEq Queue] [DecidableEq Entry] in
theorem setRole_self (v : QueueView Queue Thread Entry) (same : v.role t = r) : v.setRole t r = v := by
  rw [QueueView.setRole, ← same, update_eq_self]

end Views

/-- Whether an action takes a thread away from a queue that it runs for. -/
def departure (σ : QueueState Queue Thread Entry) (x : Queue) : QueueAction Queue Thread Entry → Departure
  | .remove thread queue _ =>
    if (σ.thread thread).queue = some x then (if queue = x then .rejoins else .leaves) else .stays
  | _ => .stays

/-- What a step of the system is to one queue. -/
def Serves (σ σ' : QueueState Queue Thread Entry) (action : QueueAction Queue Thread Entry) (x : Queue) :
    Prop :=
  σ'.view x = σ.view x ∨ ServiceStep (σ.view x) (departure σ x action) (σ'.view x)

section Simulation
omit [DecidableEq Entry]

/-- The steps that a thread can take where it stands. -/
inductive QueueMove (σ : QueueState Queue Thread Entry) :
    QueueAction Queue Thread Entry → QueueState Queue Thread Entry → Prop
  | insert : QueueMove σ (.insert queue entry) (ksInsertQueue σ queue entry)
  | remove (outside : (σ.thread t).point = .outside) : QueueMove σ (.remove t queue timeout)
      ((leavePrevious σ t).setThread t (((leavePrevious σ t).thread t).goto (.testing queue timeout)))
  | test (testing : (σ.thread t).point = .testing queue timeout) :
      QueueMove σ (.test t) (testQueue σ t queue timeout)
  | wake (handed : (σ.thread t).point = .handed queue timeout) :
      QueueMove σ (.wake t) (σ.setThread t ((σ.thread t).goto (.woken queue timeout)))
  | expire (waiting : (σ.thread t).point = .waiting queue (some timeout)) :
      QueueMove σ (.expire t) (expireWait σ t queue (some timeout))
  | wild (handed : (σ.thread t).point = .handed queue (some timeout)) :
      QueueMove σ (.expire t) { σ with faulted := true }
  | resume (woken : (σ.thread t).point = .woken queue timeout) :
      QueueMove σ (.resume t) (resumeWait σ t queue timeout)

theorem QueueMove.of_step {σ σ' : QueueState Queue Thread Entry} (stepped : queueStep σ action = some σ') :
    QueueMove σ action σ' := by
  cases action <;> simp only [queueStep] at stepped <;> grind [QueueMove]

variable {σ : QueueState Queue Thread Entry} {x : Queue}

/-- Threads of which the wait lists consist do wait there. -/
def Listed (σ : QueueState Queue Thread Entry) : Prop :=
  ∀ x t, t ∈ (σ.queue x).waitListHead → (σ.thread t).role x = .waiting

theorem serves_insert (listed : Listed σ) (coherent : ∀ t, (σ.thread t).Coherent) :
    Serves σ (ksInsertQueue σ queue entry) (.insert queue entry) x := by
  rw [ksInsertQueue]
  split
  next waiter rest list =>
    split
    next admits =>
      have inside : waiter ∈ (σ.queue queue).waitListHead := list ▸ List.mem_cons_self
      have before := listed queue waiter inside
      obtain ⟨timeout, point⟩ := QueueThread.waiting_of_role before
      have clear := coherent waiter
      rw [QueueThread.Coherent, point] at clear
      rw [Serves, view_inserted]
      by_cases here : queue = x
      · subst here
        rw [if_pos rfl, view_setQueue_self, view_setThread, QueueThread.role_hand clear.1 point, if_pos rfl]
        exact Or.inr (.hand waiter rest queue entry list admits)
      · rw [if_neg here, view_setQueue_other _ _ (Ne.symm here), view_setThread,
          QueueThread.role_hand clear.1 point, if_neg here]
        left
        apply setRole_self
        exact (QueueThread.role_waiting clear.1 point).trans (if_neg here)
    next refused =>
      rw [Serves, view_inserted]
      by_cases here : queue = x
      · subst here
        rw [if_pos rfl, view_setQueue_self]
        exact Or.inr (.append queue entry (Or.inr refused))
      · rw [if_neg here, view_setQueue_other _ _ (Ne.symm here)]
        exact Or.inl rfl
  next empty =>
    rw [Serves, view_inserted]
    by_cases here : queue = x
    · subst here
      rw [if_pos rfl, view_setQueue_self]
      exact Or.inr (.append queue entry (Or.inl empty))
    · rw [if_neg here, view_setQueue_other _ _ (Ne.symm here)]
      exact Or.inl rfl

theorem leavePrevious_none (previous : (σ.thread t).queue = none) : leavePrevious σ t = σ := by
  rw [leavePrevious, previous]

theorem leavePrevious_some (previous : (σ.thread t).queue = some p) :
    leavePrevious σ t =
      (σ.setQueue p (σ.view p).release).setThread t ((σ.thread t).setQueue none) := by
  rw [leavePrevious, previous]
  rfl

theorem serves_remove (outside : (σ.thread t).point = .outside) :
    Serves σ ((leavePrevious σ t).setThread t
      (((leavePrevious σ t).thread t).goto (.testing queue timeout))) (.remove t queue timeout) x := by
  have before := QueueThread.role_outside (x := x) outside
  rw [Serves, departure]
  cases previous : (σ.thread t).queue with
  | none =>
    rw [previous, if_neg nofun] at before
    rw [if_neg nofun, leavePrevious_none previous, view_setThread,
      QueueThread.role_goto_testing previous]
    by_cases here : queue = x
    · rw [if_pos here]
      exact Or.inr (.enter t before)
    · rw [if_neg here]
      exact Or.inl (setRole_self _ before)
  | some p =>
    rw [previous] at before
    have gone : ((leavePrevious σ t).thread t).queue = none := by
      rw [leavePrevious_some previous, setThread_self]
      rfl
    have twice : ((leavePrevious σ t).setThread t
        (((leavePrevious σ t).thread t).goto (.testing queue timeout))).view x =
          ((σ.setQueue p (σ.view p).release).view x).setRole t (if queue = x then .testing else .away) := by
      rw [view_setThread, QueueThread.role_goto_testing gone, leavePrevious_some previous, view_setThread,
        QueueView.setRole, QueueView.setRole, update_idem]
      rfl
    rw [twice]
    by_cases left : p = x
    · subst left
      rw [if_pos rfl] at before
      rw [view_setQueue_self, if_pos rfl]
      right
      by_cases here : queue = p
      · rw [if_pos here, if_pos here]
        exact .rejoin t before
      · rw [if_neg here, if_neg here]
        exact .leave t before
    · have elsewhere : some p ≠ some x := fun same => left (Option.some.inj same)
      rw [if_neg elsewhere] at before
      rw [view_setQueue_other _ _ (Ne.symm left), if_neg elsewhere]
      by_cases here : queue = x
      · rw [if_pos here]
        exact Or.inr (.enter t before)
      · rw [if_neg here]
        exact Or.inl (setRole_self _ before)

section
variable (coherent : ∀ t, (σ.thread t).Coherent)
include coherent

theorem serves_wake (handed : (σ.thread t).point = .handed queue timeout) :
    Serves σ (σ.setThread t ((σ.thread t).goto (.woken queue timeout))) (.wake t) x := by
  have clear := coherent t
  rw [QueueThread.Coherent, handed] at clear
  rw [Serves, view_setThread, QueueThread.role_wake clear.1 handed]
  exact Or.inl (setRole_self _ rfl)

theorem serves_expire (waiting : (σ.thread t).point = .waiting queue timeout) :
    Serves σ (expireWait σ t queue timeout) (.expire t) x := by
  have clear := coherent t
  rw [QueueThread.Coherent, waiting] at clear
  obtain ⟨queueless, _, resultless⟩ := clear
  have after : ((σ.thread t).expire queue timeout).role x = .away :=
    QueueThread.role_expired queueless rfl resultless
  rw [Serves, expireWait, view_setThread, after]
  have before := QueueThread.role_waiting (x := x) queueless waiting
  by_cases here : queue = x
  · subst here
    rw [view_setQueue_self]
    exact Or.inr (.expire t (before.trans (if_pos rfl)))
  · rw [view_setQueue_other _ _ (Ne.symm here)]
    exact Or.inl (setRole_self _ (before.trans (if_neg here)))

theorem serves_resume (woken : (σ.thread t).point = .woken queue timeout) :
    Serves σ (resumeWait σ t queue timeout) (.resume t) x := by
  have clear := coherent t
  rw [QueueThread.Coherent, woken] at clear
  obtain ⟨queueless, objectless, status, key⟩ := clear
  have unlisted : ¬ (σ.thread t).object ≠ none := not_not.mpr objectless
  have unchanged : σ.setQueue queue (σ.queue queue) = σ := by
    rw [QueueState.setQueue, update_eq_self]
  rw [Serves, resumeWait]
  cases result : (σ.thread t).waitResult with
  | some entry =>
    have counted : ¬ ((some entry : Option Entry) ≠ none ∧ (σ.thread t).waitKey = 0) := by
      rintro ⟨_, zero⟩
      rw [key (by rw [result]; nofun)] at zero
      cases zero
    have before := QueueThread.role_handed (x := x) queueless woken result
    simp only [if_neg unlisted, if_neg counted, unchanged]
    rw [view_delivered, view_setThread, QueueThread.role_run]
    by_cases here : queue = x
    · rw [if_pos here] at before
      rw [if_pos here, if_pos here]
      exact Or.inr (.resume t queue entry before)
    · rw [if_neg here] at before
      rw [if_neg here, if_neg here]
      exact Or.inl (setRole_self _ before)
  | none =>
    have before := QueueThread.role_expired (x := x) queueless woken result
    have counted : ¬ ((none : Option Entry) ≠ none ∧ (σ.thread t).waitKey = 0) := fun both => both.1 rfl
    have notTimeout : ¬ (σ.thread t).waitStatus = statusTimeout % 0x100 := by
      rw [status]
      decide
    simp only [if_neg unlisted, if_neg counted, unchanged, if_neg notTimeout]
    have cleared : (σ.thread t).clearWait.queue = none := queueless
    rw [view_setThread, QueueThread.role_goto_testing cleared]
    by_cases here : queue = x
    · rw [if_pos here]
      exact Or.inr (.enter t before)
    · rw [if_neg here]
      exact Or.inl (setRole_self _ before)

theorem serves_wait (testing : (σ.thread t).point = .testing queue timeout)
    (refused : (σ.queue queue).entryListHead = [] ∨ ¬ (σ.queue queue).admits) :
    Serves σ (testQueue.wait σ t queue timeout (σ.queue queue) (σ.thread t)) (.test t) x := by
  have queueless := coherent t
  rw [QueueThread.Coherent, testing] at queueless
  have before := QueueThread.role_testing (x := x) queueless testing
  rw [Serves, testQueue.wait]
  split
  next poll =>
    rw [view_setThread, QueueThread.role_goto_outside queueless]
    by_cases here : queue = x
    · subst here
      exact Or.inr (.giveUp t (before.trans (if_pos rfl)) refused)
    · exact Or.inl (setRole_self _ (before.trans (if_neg here)))
  next waits =>
    have after : ((σ.thread t).block queue timeout).role x = if queue = x then .waiting else .away :=
      QueueThread.role_waiting queueless rfl
    rw [view_setThread, after]
    by_cases here : queue = x
    · subst here
      rw [view_setQueue_self, if_pos rfl]
      exact Or.inr (.wait t (before.trans (if_pos rfl)) refused)
    · rw [view_setQueue_other _ _ (Ne.symm here), if_neg here]
      exact Or.inl (setRole_self _ (before.trans (if_neg here)))

theorem serves_test (testing : (σ.thread t).point = .testing queue timeout) :
    Serves σ (testQueue σ t queue timeout) (.test t) x := by
  rw [testQueue]
  split
  next entry rest list =>
    split
    next admits =>
      have queueless := coherent t
      rw [QueueThread.Coherent, testing] at queueless
      have before := QueueThread.role_testing (x := x) queueless testing
      rw [Serves, view_delivered, view_setThread, QueueThread.role_run]
      by_cases here : queue = x
      · subst here
        rw [if_pos rfl, if_pos rfl, view_setQueue_self]
        exact Or.inr (.take t queue entry rest (before.trans (if_pos rfl)) list admits)
      · rw [if_neg here, if_neg here, view_setQueue_other _ _ (Ne.symm here)]
        exact Or.inl (setRole_self _ (before.trans (if_neg here)))
    next refused => exact serves_wait coherent testing (Or.inr refused)
  next empty => exact serves_wait coherent testing (Or.inl empty)

end

theorem serves {σ' : QueueState Queue Thread Entry} (listed : Listed σ)
    (coherent : ∀ t, (σ.thread t).Coherent) (stepped : queueStep σ action = some σ') :
    Serves σ σ' action x := by
  cases QueueMove.of_step stepped with
  | insert => exact serves_insert listed coherent
  | remove outside => exact serves_remove outside
  | test testing => exact serves_test coherent testing
  | wake handed => exact serves_wake coherent handed
  | expire waiting => exact serves_expire coherent waiting
  | wild => exact Or.inl rfl
  | resume woken => exact serves_resume coherent woken

end Simulation

section Coherence
omit [DecidableEq Entry]
variable {σ : QueueState Queue Thread Entry}

omit [DecidableEq Queue] in
theorem coherent_setThread (coherent : ∀ t, (σ.thread t).Coherent) (clear : θ.Coherent) :
    ∀ u, ((σ.setThread t θ).thread u).Coherent := by
  intro u
  simp only [QueueState.setThread, update_apply]
  split
  · exact clear
  · exact coherent u

theorem coherent_insert (listed : Listed σ) (coherent : ∀ t, (σ.thread t).Coherent) :
    ∀ t, ((ksInsertQueue σ queue entry).thread t).Coherent := by
  rw [ksInsertQueue]
  split
  next waiter rest list =>
    split
    next admits =>
      obtain ⟨timeout, point⟩ :=
        QueueThread.waiting_of_role (listed queue waiter (list ▸ List.mem_cons_self))
      have clear := coherent waiter
      rw [QueueThread.Coherent, point] at clear
      apply coherent_setThread coherent
      simp only [QueueThread.Coherent, QueueThread.hand, point]
      exact ⟨clear.1, trivial, trivial, fun _ => trivial⟩
    next => exact coherent
  next => exact coherent

theorem coherent_remove (coherent : ∀ t, (σ.thread t).Coherent)
    (outside : (σ.thread t).point = .outside) :
    ∀ u, (((leavePrevious σ t).setThread t
      (((leavePrevious σ t).thread t).goto (.testing queue timeout))).thread u).Coherent := by
  cases previous : (σ.thread t).queue with
  | none =>
    rw [leavePrevious_none previous]
    exact coherent_setThread coherent previous
  | some p =>
    rw [leavePrevious_some previous, setThread_self]
    have left : ∀ u, (((σ.setQueue p (σ.view p).release).setThread t
        ((σ.thread t).setQueue none)).thread u).Coherent := by
      apply coherent_setThread coherent
      simp only [QueueThread.Coherent, QueueThread.setQueue, outside]
    exact coherent_setThread left rfl

theorem coherent_test (coherent : ∀ t, (σ.thread t).Coherent)
    (testing : (σ.thread t).point = .testing queue timeout) :
    ∀ u, ((testQueue σ t queue timeout).thread u).Coherent := by
  have queueless := coherent t
  rw [QueueThread.Coherent, testing] at queueless
  have waits : ∀ u, ((testQueue.wait σ t queue timeout (σ.queue queue) (σ.thread t)).thread u).Coherent := by
    rw [testQueue.wait]
    split
    · exact coherent_setThread coherent trivial
    · exact coherent_setThread (σ := σ.setQueue queue _) coherent ⟨queueless, rfl, rfl⟩
  rw [testQueue]
  split
  next entry rest list =>
    split
    next admits => exact coherent_setThread (σ := σ.setQueue queue _) coherent trivial
    next => exact waits
  next => exact waits

theorem coherent_step {σ' : QueueState Queue Thread Entry} (listed : Listed σ)
    (coherent : ∀ t, (σ.thread t).Coherent) (stepped : queueStep σ action = some σ') :
    ∀ t, (σ'.thread t).Coherent := by
  cases QueueMove.of_step stepped with
  | insert => exact coherent_insert listed coherent
  | remove outside => exact coherent_remove coherent outside
  | test testing => exact coherent_test coherent testing
  | @wake t _ _ handed =>
    have clear := coherent t
    rw [QueueThread.Coherent, handed] at clear
    exact coherent_setThread coherent clear
  | @expire t queue _ waiting =>
    have clear := coherent t
    rw [QueueThread.Coherent, waiting] at clear
    exact coherent_setThread (σ := σ.setQueue queue _) coherent
      ⟨clear.1, rfl, rfl, fun some => absurd clear.2.2 some⟩
  | wild => exact coherent
  | @resume t queue _ woken =>
    have clear := coherent t
    rw [QueueThread.Coherent, woken] at clear
    rw [resumeWait]
    split
    · exact coherent_setThread (σ := σ.setQueue queue _) coherent trivial
    split
    · exact coherent_setThread (σ := σ.setQueue queue _) coherent trivial
    · exact coherent_setThread (σ := σ.setQueue queue _) coherent clear.1

end Coherence

section Runs
variable [Finite Thread] {σ σ' : QueueState Queue Thread Entry}

/-- The books of every queue are kept, and the threads are coherent. -/
structure AllServed (σ : QueueState Queue Thread Entry) : Prop where
  coherent (t : Thread) : (σ.thread t).Coherent
  served (x : Queue) : Served (σ.view x)

omit [DecidableEq Thread] [Finite Thread] in
theorem AllServed.listed (all : AllServed σ) : Listed σ :=
  fun x _ inside => (all.served x).waiting.mp inside

theorem AllServed.step (all : AllServed σ) (stepped : queueStep σ action = some σ') : AllServed σ' := by
  constructor
  · exact coherent_step all.listed all.coherent stepped
  · intro x
    rcases serves (x := x) all.listed all.coherent stepped with same | service
    · exact same ▸ all.served x
    · exact (all.served x).step service

/-- The timer of a thread that was handed an entry does not expire before the thread
is woken. -/
def WokenFirst (σ : QueueState Queue Thread Entry) : QueueAction Queue Thread Entry → Prop
  | .expire t => ∀ queue timeout, (σ.thread t).point ≠ .handed queue timeout
  | _ => True

omit [Finite Thread] [DecidableEq Entry] in
theorem faulted_step (first : WokenFirst σ action) (stepped : queueStep σ action = some σ') :
    σ'.faulted = σ.faulted := by
  cases QueueMove.of_step stepped with
  | insert =>
    rw [ksInsertQueue]
    split
    · split <;> rfl
    · rfl
  | @remove t _ _ _ =>
    cases previous : (σ.thread t).queue with
    | none => rw [leavePrevious_none previous]; rfl
    | some p => rw [leavePrevious_some previous]; rfl
  | @test t queue timeout _ =>
    have waits : (testQueue.wait σ t queue timeout (σ.queue queue) (σ.thread t)).faulted = σ.faulted := by
      rw [testQueue.wait]
      split <;> rfl
    rw [testQueue]
    split
    · split
      · rfl
      · exact waits
    · exact waits
  | wake | expire => rfl
  | wild handed => exact absurd handed (first _ (some _))
  | resume =>
    rw [resumeWait]
    split
    · rfl
    · split <;> rfl

/-- A thread leaves no queue that has a backlog. -/
def BacklogStays (σ : QueueState Queue Thread Entry) : QueueAction Queue Thread Entry → Prop
  | .remove t _ _ => ∀ p, (σ.thread t).queue = some p → ¬ Backlog (σ.view p)
  | _ => True

/-- A thread leaves a queue that has a backlog only to come back to it at once, or
while enough others are about to test it. -/
def BacklogHeeded (σ : QueueState Queue Thread Entry) : QueueAction Queue Thread Entry → Prop
  | .remove t queue _ => ∀ p, (σ.thread t).queue = some p → p ≠ queue → Backlog (σ.view p) →
      (σ.queue p).maximumCount < (σ.queue p).currentCount + census QueueRole.tests (σ.view p).role
  | _ => True

omit [Finite Thread] [DecidableEq Entry] [DecidableEq Thread] in
theorem heeded_of_stays (stays : BacklogStays σ action) : BacklogHeeded σ action := by
  cases action with
  | remove t queue timeout => exact fun p runs _ backlog => absurd backlog (stays p runs)
  | _ => trivial

omit [Finite Thread] [DecidableEq Entry] [DecidableEq Thread] in
theorem not_backlog_of_departure (stays : BacklogStays σ action)
    (departs : departure σ x action ≠ .stays) : ¬ Backlog (σ.view x) := by
  cases action with
  | remove t queue timeout =>
    rw [departure] at departs
    split at departs
    next runs => exact stays x runs
    next => exact absurd rfl departs
  | _ => exact absurd rfl departs

omit [Finite Thread] [DecidableEq Entry] [DecidableEq Thread] in
theorem heeded_of_departure (heeds : BacklogHeeded σ action)
    (leaves : departure σ x action = .leaves) (backlog : Backlog (σ.view x)) :
    (σ.queue x).maximumCount < (σ.queue x).currentCount + census QueueRole.tests (σ.view x).role := by
  cases action with
  | remove t queue timeout =>
    rw [departure] at leaves
    split at leaves
    next runs =>
      split at leaves
      next => cases leaves
      next elsewhere => exact heeds x runs (Ne.symm elsewhere) backlog
    next => cases leaves
  | _ => cases leaves

omit [Finite Thread] in
theorem saturated_step (all : AllServed σ) (saturated : ∀ x, Saturated (σ.view x))
    (stays : BacklogStays σ action) (stepped : queueStep σ action = some σ') :
    ∀ x, Saturated (σ'.view x) := by
  intro x
  rcases serves (x := x) all.listed all.coherent stepped with same | service
  · exact same ▸ saturated x
  · exact (saturated x).step (all.served x) service (not_backlog_of_departure stays)

theorem heeded_step (all : AllServed σ) (heeded : ∀ x, Heeded (σ.view x))
    (heeds : BacklogHeeded σ action) (stepped : queueStep σ action = some σ') :
    ∀ x, Heeded (σ'.view x) := by
  intro x
  rcases serves (x := x) all.listed all.coherent stepped with same | service
  · exact same ▸ heeded x
  · exact (heeded x).step (all.served x) service (heeded_of_departure heeds)

def QueueState.start (maximum : Queue → Nat) : QueueState Queue Thread Entry where
  queue := fun x => ksInitializeQueue Thread Entry (maximum x)
  thread := fun _ => ⟨none, none, none, 0, 0, .outside⟩
  events := []
  faulted := false

def QueueStep (σ : QueueState Queue Thread Entry) (action : QueueAction Queue Thread Entry)
    (σ' : QueueState Queue Thread Entry) : Prop := queueStep σ action = some σ'

omit [DecidableEq Thread] in
theorem AllServed.start (maximum : Queue → Nat) :
    AllServed (QueueState.start maximum : QueueState Queue Thread Entry) := by
  constructor
  case coherent => exact fun _ => trivial
  case served =>
    intro x
    have nobody (kind : QueueRole Entry → Bool) (none : kind .away = false) :
        census kind ((QueueState.start maximum : QueueState Queue Thread Entry).view x).role = 0 :=
      census_eq_zero.mpr fun _ => none
    constructor
    case delivered =>
      intro entry
      rw [nobody _ rfl]
      rfl
    case ordered => rfl
    case signalState => rfl
    case currentCount =>
      rw [nobody _ rfl, nobody _ rfl]
      rfl
    case maximum => exact fun _ => Nat.zero_le _
    case waiting => exact iff_of_false List.not_mem_nil nofun
    case once => exact List.nodup_nil

theorem queue_runs {maximum : Queue → Nat} {actions : List (QueueAction Queue Thread Entry)} :
    (Run (Guarded WokenFirst QueueStep) (.start maximum) actions σ →
      σ.faulted = false ∧ ∀ x, Served (σ.view x)) ∧
    (Run (Guarded (fun σ action => WokenFirst σ action ∧ BacklogStays σ action) QueueStep)
      (.start maximum) actions σ → ∀ x, Saturated (σ.view x)) ∧
    (Run (Guarded (fun σ action => WokenFirst σ action ∧ BacklogHeeded σ action) QueueStep)
      (.start maximum) actions σ → ∀ x, Heeded (σ.view x)) := by
  refine ⟨?_, ?_, ?_⟩
  · intro run
    have kept : σ.faulted = false ∧ AllServed σ := by
      apply run.invariant (P := fun σ => σ.faulted = false ∧ AllServed σ)
      · rintro σ action σ' ⟨sound, all⟩ ⟨first, stepped⟩
        exact ⟨(faulted_step first stepped).trans sound, all.step stepped⟩
      · exact ⟨rfl, .start maximum⟩
    exact ⟨kept.1, kept.2.served⟩
  · intro run
    have kept : AllServed σ ∧ ∀ x, Saturated (σ.view x) := by
      apply run.invariant (P := fun σ => AllServed σ ∧ ∀ x, Saturated (σ.view x))
      · rintro σ action σ' ⟨all, saturated⟩ ⟨⟨_, stays⟩, stepped⟩
        exact ⟨all.step stepped, saturated_step all saturated stays stepped⟩
      · exact ⟨.start maximum, fun _ backlog => absurd rfl backlog.1⟩
    exact kept.2
  · intro run
    have kept : AllServed σ ∧ ∀ x, Heeded (σ.view x) := by
      apply run.invariant (P := fun σ => AllServed σ ∧ ∀ x, Heeded (σ.view x))
      · rintro σ action σ' ⟨all, heeded⟩ ⟨⟨_, heeds⟩, stepped⟩
        exact ⟨all.step stepped, heeded_step all heeded heeds stepped⟩
      · exact ⟨.start maximum, fun _ backlog => absurd rfl backlog.1⟩
    exact kept.2

end Runs

/-- A thread takes an entry and leaves; another one waits with a timeout in vain, waits
once more, is handed the next entry, is woken and returns it. -/
theorem queue_runs_two :
    ∃ σ : QueueState Bool (Fin 2) Nat, (σ.faulted = false ∧ ∀ x, Served (σ.view x)) ∧
      (∀ x, Saturated (σ.view x)) ∧ (∀ x, Heeded (σ.view x)) ∧
      entryDeliveries (σ.view true).log 7 = 1 ∧ entryDeliveries (σ.view true).log 8 = 1 := by
  have run : Run (Guarded (fun σ action => WokenFirst σ action ∧ BacklogStays σ action) QueueStep)
      (.start fun _ => 1)
      [.insert true 7, .remove 0 true none, .test 0, .remove 1 true (some 5), .test 1, .expire 1, .resume 1,
        .remove 0 false none, .test 0, .test 1, .insert true 8, .wake 1, .resume 1]
      (_ : QueueState Bool (Fin 2) Nat) :=
    .next ⟨⟨trivial, trivial⟩, rfl⟩ <| .next ⟨⟨trivial, nofun⟩, rfl⟩ <| .next ⟨⟨trivial, trivial⟩, rfl⟩ <|
    .next ⟨⟨trivial, nofun⟩, rfl⟩ <| .next ⟨⟨trivial, trivial⟩, rfl⟩ <|
    .next ⟨⟨fun _ _ => nofun, trivial⟩, rfl⟩ <| .next ⟨⟨trivial, trivial⟩, rfl⟩ <|
    .next ⟨⟨trivial, fun p same backlog => by cases p <;> exact absurd rfl backlog.1⟩, rfl⟩ <|
    .next ⟨⟨trivial, trivial⟩, rfl⟩ <| .next ⟨⟨trivial, trivial⟩, rfl⟩ <| .next ⟨⟨trivial, trivial⟩, rfl⟩ <|
    .next ⟨⟨trivial, trivial⟩, rfl⟩ <| .next ⟨⟨trivial, trivial⟩, rfl⟩ <| .refl _
  have woken : Run (Guarded WokenFirst QueueStep) _ _ _ := run.mono fun guarded => ⟨guarded.1.1, guarded.2⟩
  have heeds : Run (Guarded (fun σ action => WokenFirst σ action ∧ BacklogHeeded σ action) QueueStep) _ _ _ :=
    run.mono fun guarded => ⟨⟨guarded.1.1, heeded_of_stays guarded.1.2⟩, guarded.2⟩
  exact ⟨_, queue_runs.1 woken, queue_runs.2.1 run, queue_runs.2.2 heeds, rfl, rfl⟩

/-- Thread 0 leaves the queue for another one and nobody looks at the waiter: the
list holds entry 2, thread 1 waits, and no thread runs for the queue. And a timer
that expires between the hand-over of an entry and the wake after it. -/
theorem entry_stranded :
    (∃ σ : QueueState Bool (Fin 2) Nat, Run QueueStep (.start fun _ => 1)
      [.remove 0 true none, .test 0, .insert true 1, .wake 0, .resume 0, .remove 1 true none, .test 1,
        .insert true 2, .remove 0 false none, .test 0] σ ∧
      (σ.queue true).entryListHead = [2] ∧ (σ.queue true).waitListHead = [1] ∧
      (σ.queue true).currentCount = 0 ∧ (σ.queue true).maximumCount = 1 ∧
      ∀ t, ∃ x, (σ.thread t).point = .waiting x none) ∧
    ∃ σ : QueueState Bool (Fin 2) Nat, Run QueueStep (.start fun _ => 1)
      [.remove 0 true (some 5), .test 0, .insert true 1, .expire 0] σ ∧ σ.faulted = true := by
  constructor
  · have run : Run QueueStep (.start fun _ => 1)
        [.remove 0 true none, .test 0, .insert true 1, .wake 0, .resume 0, .remove 1 true none, .test 1,
          .insert true 2, .remove 0 false none, .test 0] (_ : QueueState Bool (Fin 2) Nat) :=
      .next rfl <| .next rfl <| .next rfl <| .next rfl <| .next rfl <| .next rfl <| .next rfl <|
      .next rfl <| .next rfl <| .next rfl <| .refl _
    refine ⟨_, run, rfl, rfl, rfl, rfl, ?_⟩
    intro t
    match t with
    | 0 => exact ⟨false, rfl⟩
    | 1 => exact ⟨true, rfl⟩
  · have run : Run QueueStep (.start fun _ => 1)
        [.remove 0 true (some 5), .test 0, .insert true 1, .expire 0] (_ : QueueState Bool (Fin 2) Nat) :=
      .next rfl <| .next rfl <| .next rfl <| .next rfl <| .refl _
    exact ⟨_, run, rfl⟩

end VeaOS.Ks
