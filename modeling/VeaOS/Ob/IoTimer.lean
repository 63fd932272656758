import VeaOS.Foundation.RingList

/-! The I/O timers of the devices. What a thread does is cut into the tests it makes
without the lock and the sections under the lock of the timers; the routines that a
tick calls run under the lock, and may start or stop timers themselves. -/
namespace VeaOS.Ob
open Foundation
variable {Thread Device Routine : Type*}

inductive TimerNode where
  | null
  | head
  | timer (t : Nat)
  deriving DecidableEq

inductive TimerSection where
  | insert (t : Nat)
  | start (t : Nat)
  | stop (t : Nat)
  | remove (t : Nat)
  | dispatch
  deriving DecidableEq

inductive TimerOp (Device Routine : Type*) where
  | idle
  /-- The device had no timer when it was looked at. -/
  | allocating (device : Device) (routine : Routine)
  | acquiring (wanted : TimerSection)
  /-- The bug check of a thread that goes for the lock it holds. -/
  | alreadyOwned
  /-- The entry to be removed is on no list: the thread writes through its null links. -/
  | nullLinks

def TimerOp.stopped : TimerOp Device Routine → Bool
  | .alreadyOwned | .nullLinks => true
  | _ => false

/-- A dispatch under way: the entry it is at, how many enabled timers it looks for
yet, the routines it called, and whether one of them is running. -/
structure Dispatch (Routine : Type*) where
  timerEntry : TimerNode
  i : UInt32
  called : List (Nat × Option Routine)
  inRoutine : Bool

/-- `queue` are the timers that were put on the list and not taken off it. For each
thread `watched` are the timers that were enabled and on the list since its tick
began, and `ticks` the ticks that ended: those timers and the routines called. -/
structure IoTimerState (Thread Device Routine : Type*) where
  links : RingLinks TimerNode
  obioTimerCount : UInt32
  timerEnabled : Nat → Bool
  timerRoutine : Nat → Option Routine
  timerOf : Device → Option Nat
  allocated : Nat
  holder : Option Thread
  op : Thread → TimerOp Device Routine
  dispatch : Thread → Option (Dispatch Routine)
  queue : List Nat
  watched : Thread → List Nat
  ticks : List (List Nat × List (Nat × Option Routine))

inductive TimerAction (Thread Device Routine : Type*) where
  | initializeIoTimer (thread : Thread) (device : Device) (routine : Routine)
  | allocate (thread : Thread) (succeeds : Bool)
  | startTimer (thread : Thread) (device : Device)
  | stopTimer (thread : Thread) (device : Device)
  | removeTimer (thread : Thread) (t : Nat)
  | tick (thread : Thread)
  | acquire (thread : Thread)
  /-- The head of the loop of a dispatch. -/
  | advance (thread : Thread)
  | routineReturns (thread : Thread)

namespace IoTimerState
variable [DecidableEq Thread] [DecidableEq Device] (σ : IoTimerState Thread Device Routine)

def setOp (thread : Thread) (op : TimerOp Device Routine) : IoTimerState Thread Device Routine :=
  { σ with op := Function.update σ.op thread op }

def setDispatch (thread : Thread) (dispatch : Option (Dispatch Routine)) : IoTimerState Thread Device Routine :=
  { σ with dispatch := Function.update σ.dispatch thread dispatch }

def enabledOnQueue : List Nat := σ.queue.filter fun t => σ.timerEnabled t

/-- A timer is not enabled, or not on the list, any more. -/
def unwatch (t : Nat) : IoTimerState Thread Device Routine :=
  { σ with watched := fun thread => (σ.watched thread).filter fun u => u ≠ t }

/-- A thread may call a routine of this module: it does nothing, or a routine of a tick. -/
def free (thread : Thread) : Bool :=
  match σ.op thread, σ.dispatch thread with
  | .idle, none => true
  | .idle, some d => d.inRoutine
  | _, _ => false

def insertTailList (t : Nat) : IoTimerState Thread Device Routine :=
  { σ with links := σ.links.insertTailList .head (.timer t), queue := σ.queue ++ [t] }

/-- The links of an entry that was taken off a list are null. -/
def removeEntryList (t : Nat) : Option (IoTimerState Thread Device Routine) :=
  if σ.links.flink (.timer t) = .null ∨ σ.links.blink (.timer t) = .null then none
  else
    let links := ((σ.links.unlinkEntry (.timer t)).setFlink (.timer t) .null).setBlink (.timer t) .null
    some { σ with links := links, queue := σ.queue.erase t }

/-- The sections of the operations that do not keep the lock. A removal fails where the
entry is on no list. -/
def runSection : TimerSection → Option (IoTimerState Thread Device Routine)
  | .insert t => some (σ.insertTailList t)
  | .start t => some { σ with
      timerEnabled := Function.update σ.timerEnabled t true
      obioTimerCount := σ.obioTimerCount + 1 }
  | .stop t =>
    if σ.timerEnabled t then
      some { σ.unwatch t with
        timerEnabled := Function.update σ.timerEnabled t false
        obioTimerCount := σ.obioTimerCount - 1 }
    else some σ
  | .remove t =>
    ((σ.unwatch t).removeEntryList t).map fun τ =>
      { τ with obioTimerCount := if τ.timerEnabled t then τ.obioTimerCount - 1 else τ.obioTimerCount }
  | .dispatch => some σ

def finishTick (thread : Thread) (called : List (Nat × Option Routine)) : IoTimerState Thread Device Routine :=
  { σ with
    ticks := (σ.watched thread, called) :: σ.ticks
    watched := Function.update σ.watched thread [] }

/-- The timer of the device gets its routine and is to be put on the list. -/
def prepare (thread : Thread) (t : Nat) (routine : Routine) : IoTimerState Thread Device Routine :=
  { σ.setOp thread (.acquiring (.insert t)) with
    timerRoutine := Function.update σ.timerRoutine t (some routine) }

def step : TimerAction Thread Device Routine → Option (IoTimerState Thread Device Routine)
  | .initializeIoTimer thread device routine =>
    if σ.free thread then
      match σ.timerOf device with
      | none => some (σ.setOp thread (.allocating device routine))
      | some t => some (σ.prepare thread t routine)
    else none
  | .allocate thread succeeds =>
    match σ.op thread with
    | .allocating device routine =>
      if succeeds then
        some ({ σ with
          timerOf := Function.update σ.timerOf device (some σ.allocated)
          allocated := σ.allocated + 1 }.prepare thread σ.allocated routine)
      else some (σ.setOp thread .idle)
    | _ => none
  | .startTimer thread device =>
    if σ.free thread then
      match σ.timerOf device with
      | none => none
      | some t => if σ.timerEnabled t then some σ else some (σ.setOp thread (.acquiring (.start t)))
    else none
  | .stopTimer thread device =>
    if σ.free thread then
      match σ.timerOf device with
      | none => none
      | some t => some (σ.setOp thread (.acquiring (.stop t)))
    else none
  | .removeTimer thread t =>
    if σ.free thread ∧ t < σ.allocated then some (σ.setOp thread (.acquiring (.remove t))) else none
  | .tick thread =>
    match σ.op thread, σ.dispatch thread with
    | .idle, none =>
      let τ := { σ with watched := Function.update σ.watched thread σ.enabledOnQueue }
      if σ.obioTimerCount = 0 then some (τ.finishTick thread [])
      else some (τ.setOp thread (.acquiring .dispatch))
    | _, _ => none
  | .acquire thread =>
    match σ.op thread with
    | .acquiring wanted =>
      match σ.holder with
      | some holder => if holder = thread then some (σ.setOp thread .alreadyOwned) else none
      | none =>
        if wanted = .dispatch then
          some { (σ.setOp thread .idle).setDispatch thread
            (some ⟨σ.links.flink .head, σ.obioTimerCount, [], false⟩) with holder := some thread }
        else some (((σ.setOp thread .idle).runSection wanted).getD (σ.setOp thread .nullLinks))
    | _ => none
  | .advance thread =>
    match σ.op thread, σ.dispatch thread with
    | .idle, some d =>
      if d.inRoutine then none
      else
        match d.timerEntry with
        | .null => none
        | .head => some { (σ.setDispatch thread none).finishTick thread d.called with holder := none }
        | .timer t =>
          if d.i = 0 then some { (σ.setDispatch thread none).finishTick thread d.called with holder := none }
          else if σ.timerEnabled t then
            some (σ.setDispatch thread (some { d with
              called := d.called ++ [(t, σ.timerRoutine t)], inRoutine := true }))
          else some (σ.setDispatch thread (some { d with timerEntry := σ.links.flink d.timerEntry }))
    | _, _ => none
  | .routineReturns thread =>
    match σ.op thread, σ.dispatch thread with
    | .idle, some d =>
      if d.inRoutine then
        some (σ.setDispatch thread (some { d with
          timerEntry := σ.links.flink d.timerEntry, i := d.i - 1, inRoutine := false }))
      else none
    | _, _ => none

end IoTimerState

def obioInitTimers (Thread Device Routine : Type*) : IoTimerState Thread Device Routine where
  links := ⟨fun x => if x = .head then .head else .null, fun x => if x = .head then .head else .null⟩
  obioTimerCount := 0
  timerEnabled := fun _ => false
  timerRoutine := fun _ => none
  timerOf := fun _ => none
  allocated := 0
  holder := none
  op := fun _ => .idle
  dispatch := fun _ => none
  queue := []
  watched := fun _ => []
  ticks := []

end VeaOS.Ob
