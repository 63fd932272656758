import Mathlib.Data.List.Nodup
import Mathlib.Data.List.Perm.Basic
import VeaOS.Ob.DeviceActions

/-! Runs of the queue of device actions. Where the boot path finds the flag clear,
one worker at a time is on its way or at work, and every request has the events of
its own action, once. -/
namespace VeaOS.Pnp
open Transition

section Handled
variable {Device : Type} {id : Nat}

def ActionEvent.about : ActionEvent Device → Option Nat
  | .queued request => some request.id
  | .processed request _ _ => some request.id
  | .completed id _ => some id
  | .signalled id => some id
  | _ => none

/-- The shared work item is touched while it is on the work queue. -/
def ActionEvent.onQueue : ActionEvent Device → Bool
  | .initializedItem onQueue => onQueue
  | .queuedItem onQueue => onQueue
  | _ => false

def eventsOf (id : Nat) (log : List (ActionEvent Device)) : List (ActionEvent Device) :=
  log.filter fun event => event.about = some id

/-- The events of a request from its beginning to its end. -/
def HandledAs (request : DeviceActionRequest Device) (found : DeviceNode Device) (log : List (ActionEvent Device)) :
    Prop :=
  ∀ services, eventsOf request.id log =
    .queued request :: ActionQueue.completion request found (ownStatus services request.action found)

/-- The requests that are not done yet, and the events of all. -/
structure Handled (pending : List (DeviceActionRequest Device)) (count : Nat) (log : List (ActionEvent Device)) :
    Prop where
  once : (pending.map DeviceActionRequest.id).Nodup
  below : ∀ request ∈ pending, request.id < count
  waits : ∀ request ∈ pending, eventsOf request.id log = [.queued request]
  done : ∀ id, id < count → id ∉ pending.map DeviceActionRequest.id →
    ∃ request found, request.id = id ∧ HandledAs request found log
  fresh : ∀ id, count ≤ id → eventsOf id log = []

theorem eventsOf_append (id : Nat) (first second : List (ActionEvent Device)) :
    eventsOf id (first ++ second) = eventsOf id first ++ eventsOf id second := List.filter_append first second

theorem eventsOf_append_other {first second : List (ActionEvent Device)}
    (other : ∀ event ∈ second, event.about ≠ some id) : eventsOf id (first ++ second) = eventsOf id first := by
  have none : eventsOf id second = [] :=
    List.filter_eq_nil_iff.mpr fun event member same => other event member (of_decide_eq_true same)
  rw [eventsOf_append, none, List.append_nil]

theorem eventsOf_all {events : List (ActionEvent Device)} (all : ∀ event ∈ events, event.about = some id) :
    eventsOf id events = events :=
  List.filter_eq_self.mpr fun event member => decide_eq_true (all event member)

theorem completion_about (request : DeviceActionRequest Device) (found : DeviceNode Device) (status : VeaStatus) :
    ∀ event ∈ ActionQueue.completion request found status, event.about = some request.id ∧ event.onQueue = false := by
  intro event member
  rw [ActionQueue.completion, List.mem_append, List.mem_append, List.mem_singleton] at member
  rcases member with (rfl | member) | member
  · exact ⟨rfl, rfl⟩
  · split_ifs at member
    · rw [List.mem_singleton.mp member]
      exact ⟨rfl, rfl⟩
    · cases member
  · split_ifs at member
    · rw [List.mem_singleton.mp member]
      exact ⟨rfl, rfl⟩
    · cases member

namespace Handled
variable {pending pending' : List (DeviceActionRequest Device)} {log : List (ActionEvent Device)}

theorem empty : Handled ([] : List (DeviceActionRequest Device)) 0 [] where
  once := List.nodup_nil
  below := List.forall_mem_nil _
  waits := List.forall_mem_nil _
  done id below := absurd below (Nat.not_lt_zero id)
  fresh _ _ := rfl

theorem perm (handled : Handled pending count log) (same : pending.Perm pending') : Handled pending' count log where
  once := (same.map _).nodup_iff.mp handled.once
  below request member := handled.below request (same.mem_iff.mpr member)
  waits request member := handled.waits request (same.mem_iff.mpr member)
  done id below apart := handled.done id below fun member => apart ((same.map _).mem_iff.mp member)
  fresh := handled.fresh

theorem append {events : List (ActionEvent Device)} (handled : Handled pending count log)
    (quiet : ∀ event ∈ events, event.about = none) : Handled pending count (log ++ events) := by
  have same : ∀ id, eventsOf id (log ++ events) = eventsOf id log := fun id =>
    eventsOf_append_other fun event member => by
      rw [quiet event member]
      exact (Option.some_ne_none id).symm
  exact {
    once := handled.once
    below := handled.below
    waits := fun request member => (same _).trans (handled.waits request member)
    done := fun id below apart => by
      obtain ⟨request, found, here, events⟩ := handled.done id below apart
      exact ⟨request, found, here, fun services => (same _).trans (events services)⟩
    fresh := fun id above => (same id).trans (handled.fresh id above) }

theorem queue (handled : Handled pending count log) {request : DeviceActionRequest Device}
    (new : request.id = count) : Handled (pending ++ [request]) (count + 1) (log ++ [.queued request]) := by
  have others : ∀ id, id ≠ count → eventsOf id (log ++ [.queued request]) = eventsOf id log := fun id other => by
    refine eventsOf_append_other fun event member => ?_
    rw [List.mem_singleton.mp member]
    exact fun same => other ((Option.some.inj same).symm.trans new)
  have here : eventsOf count (log ++ [.queued request]) = [.queued request] := by
    rw [eventsOf_append, handled.fresh count (Nat.le_refl _), List.nil_append]
    refine eventsOf_all fun event member => ?_
    rw [List.mem_singleton.mp member, ← new]
    rfl
  have old : ∀ r ∈ pending, r.id ≠ count := fun r member => Nat.ne_of_lt (handled.below r member)
  exact {
    once := by
      rw [List.map_append, List.nodup_append]
      refine ⟨handled.once, List.nodup_cons.mpr ⟨List.not_mem_nil, List.nodup_nil⟩, fun a left b right same => ?_⟩
      obtain ⟨r, member, rfl⟩ := List.mem_map.mp left
      obtain rfl := List.mem_singleton.mp right
      exact old r member (same.trans new)
    below := fun r member => by
      rcases List.mem_append.mp member with before | now
      · exact Nat.lt_succ_of_lt (handled.below r before)
      · rw [List.mem_singleton.mp now, new]
        exact Nat.lt_succ_self count
    waits := fun r member => by
      rcases List.mem_append.mp member with before | now
      · rw [others _ (old r before)]
        exact handled.waits r before
      · rw [List.mem_singleton.mp now, new]
        exact here
    done := fun id below apart => by
      rw [List.map_append, List.mem_append, not_or] at apart
      have other : id ≠ count := fun same => apart.2 (by rw [same, ← new]; exact List.mem_singleton_self _)
      obtain ⟨r, found, same, events⟩ := handled.done id (by omega) apart.1
      refine ⟨r, found, same, fun services => ?_⟩
      rw [same, others id other, ← same]
      exact events services
    fresh := fun id above => by
      rw [others id (by omega)]
      exact handled.fresh id (by omega) }

theorem completed {request : DeviceActionRequest Device} (found : DeviceNode Device) (status : VeaStatus)
    (waits : eventsOf request.id log = [.queued request]) :
    eventsOf request.id (log ++ ActionQueue.completion request found status) =
      .queued request :: ActionQueue.completion request found status := by
  rw [eventsOf_append, waits, eventsOf_all fun event member => (completion_about _ _ _ event member).1]
  rfl

theorem finish {request : DeviceActionRequest Device} {found : DeviceNode Device} {status : VeaStatus}
    (handled : Handled (request :: pending) count log)
    (own : ∀ services, ownStatus services request.action found = status) :
    Handled pending count (log ++ ActionQueue.completion request found status) := by
  obtain ⟨apart, once⟩ := List.nodup_cons.mp handled.once
  have others : ∀ id, id ≠ request.id →
      eventsOf id (log ++ ActionQueue.completion request found status) = eventsOf id log := fun id other => by
    refine eventsOf_append_other fun event member => ?_
    rw [(completion_about request found status event member).1]
    exact fun same => other (Option.some.inj same).symm
  have here := completed found status (handled.waits request List.mem_cons_self)
  exact {
    once := once
    below := fun r member => handled.below r (List.mem_cons_of_mem _ member)
    waits := fun r member => by
      have other : r.id ≠ request.id := fun same => apart (same ▸ List.mem_map_of_mem member)
      rw [others _ other]
      exact handled.waits r (List.mem_cons_of_mem _ member)
    done := fun id below apart => by
      by_cases same : id = request.id
      · subst same
        exact ⟨request, found, rfl, fun services => by rw [here, own]⟩
      · have outside : id ∉ (request :: pending).map DeviceActionRequest.id := fun member =>
          (List.mem_cons.mp member).elim same apart
        obtain ⟨r, found, this, events⟩ := handled.done id below outside
        refine ⟨r, found, this, fun services => ?_⟩
        rw [this, others id same, ← this]
        exact events services
    fresh := fun id above => by
      rw [others id fun same => ?_]
      · exact handled.fresh id above
      · exact absurd (handled.below request List.mem_cons_self) (Nat.not_lt_of_le (same ▸ above)) }

end Handled
end Handled

theorem ownStatus_eq {Device : Type} {action : DeviceAction} {node : DeviceNode Device}
    (services : NodeServices Device) (startable : action = .startDevice → node.startable = true)
    (services' : NodeServices Device) : ownStatus services' action node = (processAction services action node).2 := by
  have query : ∀ (services : NodeServices Device) node, (queryState services node).2 = statusSuccess :=
    fun services node => by
      rw [queryState]
      split_ifs <;> rfl
  cases action with
  | startDevice => rw [ownStatus, startDevice, if_pos (startable rfl), processAction, query]
  | queryState => rw [ownStatus, processAction, query, processAction, query]; exact DeviceAction.noConfusion
  | _ => rfl

section Runs
variable {Device : Type} [DecidableEq Device] {q q' : ActionQueue Device}

namespace ActionQueue

/-- Callers and workers that are not through yet, and the work item. -/
def active (q : ActionQueue Device) : Nat :=
  q.initializing + q.inserting + q.itemQueued + q.waiting + q.processing.length

/-- A request of the boot path finds the flag clear, and a device that is to start can be started. -/
def Admits (q : ActionQueue Device) : ActionStep Device → Prop
  | .queue _ action _ _ => action.isInstant = true → q.inProgress = false
  | .finish request _ => request.action = .startDevice → (q.nodes request.deviceObject).startable = true
  | _ => True

instance (q : ActionQueue Device) (a : ActionStep Device) : Decidable (q.Admits a) := by
  cases a <;> unfold Admits <;> infer_instance

/-- One at a time is at work where the flag is set, and none where it is clear. -/
structure Sound (q : ActionQueue Device) : Prop where
  busy : q.inProgress = true → q.active = 1
  idle : q.inProgress = false → q.active = 0 ∧ q.requests = []
  handled : Handled (q.requests ++ q.processing) q.count q.log
  item : ∀ event ∈ q.log, event.onQueue = false

omit [DecidableEq Device] in
theorem sound_empty (nodes : Device → DeviceNode Device) : Sound (empty nodes) where
  busy flag := by cases flag
  idle _ := ⟨rfl, rfl⟩
  handled := .empty
  item := List.forall_mem_nil _

namespace Sound

omit [DecidableEq Device] in
theorem item_free (sound : q.Sound) (about : 0 < q.initializing + q.inserting) :
    q.inProgress = true ∧ q.active = 1 ∧ q.itemQueued = 0 := by
  cases flag : q.inProgress with
  | false =>
    have none := (sound.idle flag).1
    rw [active] at none
    omega
  | true =>
    have one := sound.busy flag
    have all := one
    rw [active] at all
    exact ⟨rfl, one, by omega⟩

omit [DecidableEq Device] in
theorem moved (sound : q.Sound) {events : List (ActionEvent Device)} (flag : q'.inProgress = q.inProgress)
    (same : q'.active = q.active) (requests : q'.requests = q.requests) (processing : q'.processing = q.processing)
    (count : q'.count = q.count) (log : q'.log = q.log ++ events)
    (quiet : ∀ event ∈ events, event.about = none ∧ event.onQueue = false) :
    q'.Sound where
  busy set := same.trans (sound.busy (flag ▸ set))
  idle clear := by
    obtain ⟨none, nothing⟩ := sound.idle (flag ▸ clear)
    exact ⟨same.trans none, requests.trans nothing⟩
  handled := by
    rw [requests, processing, count, log]
    exact sound.handled.append fun event member => (quiet event member).1
  item event member := by
    rw [log] at member
    exact (List.mem_append.mp member).elim (sound.item event) fun now => (quiet event now).2

omit [DecidableEq Device] in
theorem queue (sound : q.Sound) {deviceObject : Device} {action : DeviceAction}
    {completionEvent completionStatus : Bool} (clear : action.isInstant = true → q.inProgress = false) :
    (q.obioQueueDeviceAction deviceObject action completionEvent completionStatus).Sound := by
  let request : DeviceActionRequest Device := ⟨q.count, deviceObject, action, completionEvent, completionStatus⟩
  have handled : Handled (q.requests ++ [request] ++ q.processing) (q.count + 1)
      (q.log ++ [.reference deviceObject, .queued request]) := by
    have referenced : Handled (q.requests ++ q.processing) q.count (q.log ++ [.reference deviceObject]) :=
      sound.handled.append fun event member => by
        rw [List.mem_singleton.mp member]
        rfl
    have queued : Handled (q.requests ++ q.processing ++ [request]) (q.count + 1)
        (q.log ++ [.reference deviceObject] ++ [.queued request]) := referenced.queue rfl
    rw [List.append_assoc q.log] at queued
    refine queued.perm ?_
    rw [List.append_assoc, List.append_assoc]
    exact (List.perm_append_comm).append_left q.requests
  have item : ∀ event ∈ q.log ++ [.reference deviceObject, .queued request],
      event.onQueue = false := fun event member => by
    rcases List.mem_append.mp member with before | now
    · exact sound.item event before
    · rcases List.mem_pair.mp now with rfl | rfl <;> rfl
  have starts : q.inProgress = false → q.active + 1 = 1 := fun flag => by rw [(sound.idle flag).1]
  rw [obioQueueDeviceAction]
  by_cases instant : action.isInstant = true
  · have one := starts (clear instant)
    rw [active] at one
    rw [if_pos instant]
    exact {
      busy := fun _ => by
        rw [active]
        dsimp only
        omega
      idle := fun flag => by cases flag
      handled := handled
      item := item }
  · rw [if_neg instant]
    by_cases set : q.inProgress = true
    · rw [if_pos set]
      exact {
        busy := fun _ => sound.busy set
        idle := fun flag => by
          rw [set] at flag
          cases flag
        handled := handled
        item := item }
    · have one := starts (eq_false_of_ne_true set)
      rw [active] at one
      rw [if_neg set]
      exact {
        busy := fun _ => by
          rw [active]
          dsimp only
          omega
        idle := fun flag => by cases flag
        handled := handled
        item := item }

omit [DecidableEq Device] in
theorem take (sound : q.Sound) (waits : q.waiting ≠ 0) : q.take.Sound := by
  have set : q.inProgress = true := by
    by_contra clear
    have none := (sound.idle (eq_false_of_ne_true clear)).1
    rw [active] at none
    omega
  have one := sound.busy set
  rw [active] at one
  rw [ActionQueue.take]
  cases list : q.requests with
  | nil => exact {
      busy := fun flag => by cases flag
      idle := fun _ => ⟨by
        rw [active]
        dsimp only
        omega, rfl⟩
      handled := by
        have handled := sound.handled
        rwa [list] at handled
      item := sound.item }
  | cons request rest => exact {
      busy := fun _ => by
        simp only [active, List.length_append, List.length_singleton]
        omega
      idle := fun flag => by
        rw [set] at flag
        cases flag
      handled := by
        have handled := sound.handled
        rw [list] at handled
        refine handled.perm ?_
        rw [← List.append_assoc]
        exact (List.perm_append_singleton request (rest ++ q.processing)).symm
      item := sound.item }

theorem finish (sound : q.Sound) {request : DeviceActionRequest Device} (services : NodeServices Device)
    (member : request ∈ q.processing)
    (startable : request.action = .startDevice → (q.nodes request.deviceObject).startable = true) :
    (q.finish request services).Sound := by
  have set : q.inProgress = true := by
    by_contra clear
    have none := (sound.idle (eq_false_of_ne_true clear)).1
    have some := List.length_pos_of_mem member
    rw [active] at none
    omega
  have one := sound.busy set
  have less := List.length_erase_of_mem member
  have some := List.length_pos_of_mem member
  rw [active] at one
  rw [ActionQueue.finish]
  exact {
    busy := fun _ => by
      simp only [active, less]
      omega
    idle := fun flag => by
      rw [set] at flag
      cases flag
    handled := by
      have whole : (q.requests ++ q.processing).Perm (request :: (q.requests ++ q.processing.erase request)) :=
        ((List.perm_cons_erase member).append_left q.requests).trans List.perm_middle
      have done := (sound.handled.perm whole).finish (ownStatus_eq services startable)
      exact done.append fun event member => by
        rw [List.mem_singleton.mp member]
        rfl
    item := fun event member => by
      have member : event ∈ q.log ++ completion request (q.nodes request.deviceObject) _ ++ [.dereference _] := member
      rw [List.append_assoc] at member
      rcases List.mem_append.mp member with before | now
      · exact sound.item event before
      · rcases List.mem_append.mp now with completed | dropped
        · exact (completion_about request (q.nodes request.deviceObject) _ event completed).2
        · rw [List.mem_singleton.mp dropped]
          rfl }

/-- A worker takes the request that is first on the list. -/
theorem takes (_ : q.Sound) (request : DeviceActionRequest Device) (rest : List (DeviceActionRequest Device))
    (listed : q.requests = request :: rest) (waits : 0 < q.waiting) :
    ∃ q', q.step .take = some q' ∧ q'.requests = rest ∧ request ∈ q'.processing := by
  refine ⟨q.take, if_neg (Nat.ne_of_gt waits), ?_, ?_⟩
  · rw [ActionQueue.take, listed]
  · rw [ActionQueue.take, listed]
    exact List.mem_append_right _ (List.mem_singleton_self request)

/-- The worker that has a request gives it the events of its own action. -/
theorem gives (sound : q.Sound) (request : DeviceActionRequest Device) (member : request ∈ q.processing)
    (services : NodeServices Device) (admitted : q.Admits (.finish request services)) :
    ∃ q', q.step (.finish request services) = some q' ∧ request ∉ q'.processing ∧ 0 < q'.waiting ∧
      HandledAs request (q.nodes request.deviceObject) q'.log := by
  have waits := sound.handled.waits request (List.mem_append_right _ member)
  have once : q.processing.Nodup :=
    (List.nodup_append.mp (List.Nodup.of_map _ sound.handled.once)).2.1
  refine ⟨q.finish request services, if_pos member, ?_, Nat.succ_pos q.waiting, fun services' => ?_⟩
  · exact once.not_mem_erase
  · rw [ownStatus_eq services admitted services', ActionQueue.finish, eventsOf_append_other]
    · exact Handled.completed _ _ waits
    · intro event dropped
      rw [List.mem_singleton.mp dropped]
      exact (Option.some_ne_none request.id).symm

theorem step (sound : q.Sound) {a : ActionStep Device} (admitted : q.Admits a) (stepped : q.step a = some q') :
    q'.Sound := by
  cases a with
  | queue deviceObject action completionEvent completionStatus =>
    obtain rfl := Option.some.inj stepped
    exact sound.queue admitted
  | ulInitializeWorkItem =>
    rw [ActionQueue.step] at stepped
    by_cases none : q.initializing = 0
    · rw [if_pos none] at stepped
      cases stepped
    · rw [if_neg none] at stepped
      obtain rfl := Option.some.inj stepped
      refine sound.moved rfl ?_ rfl rfl rfl rfl fun event member => ?_
      · simp only [active]
        omega
      · rw [List.mem_singleton.mp member, (sound.item_free (by omega)).2.2]
        exact ⟨rfl, rfl⟩
  | ulQueueWorkItem =>
    rw [ActionQueue.step] at stepped
    by_cases none : q.inserting = 0
    · rw [if_pos none] at stepped
      cases stepped
    · rw [if_neg none] at stepped
      obtain rfl := Option.some.inj stepped
      refine sound.moved rfl ?_ rfl rfl rfl rfl fun event member => ?_
      · simp only [active]
        omega
      · rw [List.mem_singleton.mp member, (sound.item_free (by omega)).2.2]
        exact ⟨rfl, rfl⟩
  | start =>
    rw [ActionQueue.step] at stepped
    by_cases none : q.itemQueued = 0
    · rw [if_pos none] at stepped
      cases stepped
    · rw [if_neg none] at stepped
      obtain rfl := Option.some.inj stepped
      refine sound.moved rfl ?_ rfl rfl rfl (List.append_nil _).symm (List.forall_mem_nil _)
      simp only [active]
      omega
  | take =>
    rw [ActionQueue.step] at stepped
    by_cases none : q.waiting = 0
    · rw [if_pos none] at stepped
      cases stepped
    · rw [if_neg none] at stepped
      obtain rfl := Option.some.inj stepped
      exact sound.take none
  | finish request services =>
    rw [ActionQueue.step] at stepped
    by_cases member : request ∈ q.processing
    · rw [if_pos member] at stepped
      obtain rfl := Option.some.inj stepped
      exact sound.finish services member admitted
    · rw [if_neg member] at stepped
      cases stepped
  | disturb device node =>
    obtain rfl := Option.some.inj stepped
    exact ⟨sound.busy, sound.idle, sound.handled, sound.item⟩

end Sound
end ActionQueue
end Runs

def noServices : NodeServices Nat := ⟨id, fun node => (node, statusSuccess)⟩

def initializedNodes (d : Nat) : DeviceNode Nat := { zeroNode d with state := .initialized }

def started : DeviceActionRequest Nat := ⟨0, 0, .startDevice, true, true⟩

def queried : DeviceActionRequest Nat := ⟨1, 0, .queryState, true, true⟩

/-- A device is started by the queued worker, and its state is asked for meanwhile. -/
def startedByWorker : List (ActionStep Nat) :=
  [.queue 0 .startDevice true true, .ulInitializeWorkItem, .ulQueueWorkItem, .start, .take,
    .queue 0 .queryState true true, .finish started noServices]

end VeaOS.Pnp
