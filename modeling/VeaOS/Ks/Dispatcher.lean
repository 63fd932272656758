import VeaOS.Foundation.RingList

/-! The dispatcher objects and the waits of threads: every object has a list of
the wait blocks that name it, every thread a list of the mutants it owns. -/
namespace VeaOS.Ks
open Foundation

inductive KObjects where
  | eventNotificationObject
  | eventSynchronizationObject
  | mutantObject
  | processObject
  | semaphoreObject
  | threadObject
  | timerSynchronizationObject
  deriving DecidableEq

inductive KWaitType where
  | waitAny
  | waitAll
  deriving DecidableEq

inductive KThreadState where
  | initialized
  | ready
  | running
  | standby
  | terminated
  | waiting
  deriving DecidableEq

inductive WaitStatus where
  | success
  | pending
  | invalidParameter
  | accessDenied
  deriving DecidableEq

structure DispatcherHeader where
  type : KObjects
  signalState : Int

/-- The objects of the wait blocks of a thread, `none` for a block that is not in use. -/
structure KThread (Object : Type) where
  state : KThreadState
  waitBlock : Fin 3 → Option Object
  waitType : KWaitType
  waitStatus : WaitStatus
  waitNext : Bool

/-- Every `LIST_ENTRY` of the objects and the threads. -/
inductive ListEntry (Thread Object : Type) where
  | waitListHead (object : Object)
  | waitListEntry (thread : Thread) (index : Fin 3)
  | mutantListHead (thread : Thread)
  | mutantListEntry (mutant : Object)
  deriving DecidableEq

structure Dispatcher (Thread Object : Type) where
  header : Object → DispatcherHeader
  ownerThread : Object → Option Thread
  limit : Object → Int
  thread : Thread → KThread Object
  links : RingLinks (ListEntry Thread Object)

def threadWaitObjects : List (Fin 3) := [0, 1, 2]

def ksiIsNotificationObject : KObjects → Bool
  | .eventNotificationObject | .processObject | .threadObject => true
  | _ => false

namespace KThread
variable {Object : Type} (k : KThread Object)

def setBlock (index : Fin 3) (object : Option Object) : KThread Object :=
  { k with waitBlock := Function.update k.waitBlock index object }

def ptWakeThread : KThread Object := if k.state = .waiting then { k with state := .ready } else k

/-- The objects in front of the first block that is not in use. -/
def waitObjects : List Object :=
  ((threadWaitObjects.map k.waitBlock).takeWhile Option.isSome).filterMap id

end KThread

variable {Thread Object : Type}

namespace Dispatcher
variable (s : Dispatcher Thread Object)

def signalState (object : Object) : Int := (s.header object).signalState

def isMutant (object : Object) : Bool := (s.header object).type = .mutantObject

def isNotification (object : Object) : Bool := ksiIsNotificationObject (s.header object).type

section Updates
variable [DecidableEq Thread] [DecidableEq Object]

def setSignal (object : Object) (signalState : Int) : Dispatcher Thread Object :=
  { s with header := Function.update s.header object { s.header object with signalState := signalState } }

def setThread (thread : Thread) (k : KThread Object) : Dispatcher Thread Object :=
  { s with thread := Function.update s.thread thread k }

def wakeThread (thread : Thread) : Dispatcher Thread Object :=
  s.setThread thread (s.thread thread).ptWakeThread

def insertTailList (head entry : ListEntry Thread Object) : Dispatcher Thread Object :=
  { s with links := s.links.insertTailList head entry }

/-- `WaitNext` keeps the dispatcher lock for the wait that follows. -/
def setWaitNext (thread : Thread) (wait : Bool) : Dispatcher Thread Object :=
  if wait then s.setThread thread { s.thread thread with waitNext := true } else s

end Updates
end Dispatcher

open Dispatcher
variable [DecidableEq Thread] [DecidableEq Object]

/-- Removing an entry is always followed by `InitializeListHead` on it. -/
def removeWaitBlock (s : Dispatcher Thread Object) (thread : Thread) (index : Fin 3) :
    Dispatcher Thread Object :=
  match (s.thread thread).waitBlock index with
  | none => s
  | some _ =>
    { s.setThread thread ((s.thread thread).setBlock index none) with
      links := s.links.removeEntryList (.waitListEntry thread index) }

def ksiRemoveThreadWaitBlocks (s : Dispatcher Thread Object) (thread : Thread) : Dispatcher Thread Object :=
  threadWaitObjects.foldl (fun s index => removeWaitBlock s thread index) s

omit [DecidableEq Thread] [DecidableEq Object] in
def ksiAreObjectsSignaled (s : Dispatcher Thread Object) (objects : List Object) : KWaitType → Option Nat
  | .waitAny => objects.findIdx? fun object => 0 < s.signalState object
  | .waitAll => if objects.all fun object => 0 < s.signalState object then some 0 else none

def consumeSignal (s : Dispatcher Thread Object) (object : Object) : Dispatcher Thread Object :=
  if s.isNotification object then s else s.setSignal object (s.signalState object - 1)

def ksiConsumeObjectSignals (s : Dispatcher Thread Object) (objects : List Object) (waitType : KWaitType)
    (signaledIndex : Nat) : Dispatcher Thread Object :=
  match waitType with
  | .waitAny => objects[signaledIndex]?.elim s (consumeSignal s)
  | .waitAll => objects.foldl consumeSignal s

def ksiAssignMutantOwner (s : Dispatcher Thread Object) (thread : Thread) (object : Object) :
    Dispatcher Thread Object :=
  if s.isMutant object then
    { s.insertTailList (.mutantListHead thread) (.mutantListEntry object) with
      ownerThread := Function.update s.ownerThread object (some thread) }
  else s

omit [DecidableEq Thread] in
def ksiThreadWaitIsSatisfied (s : Dispatcher Thread Object) (thread : Thread) (signaledObject : Object) :
    Option Nat :=
  let k := s.thread thread
  match k.waitType with
  | .waitAny => (threadWaitObjects.map k.waitBlock).findIdx? fun object => object = some signaledObject
  | .waitAll =>
    if k.waitObjects.any fun object => s.signalState object ≤ 0 then none
    else if k.waitObjects.isEmpty then none
    else some 0

def ksiSatisfyThreadWait (s : Dispatcher Thread Object) (thread : Thread) (signaledIndex : Nat) :
    Dispatcher Thread Object :=
  let objects := (s.thread thread).waitObjects
  let s := ksiConsumeObjectSignals s objects (s.thread thread).waitType signaledIndex
  -- Every object of the array is passed, also those of a `WaitAny` that were not signalled.
  let s := objects.foldl (fun s object => ksiAssignMutantOwner s thread object) s
  let s := s.setThread thread { s.thread thread with waitStatus := .success }
  (ksiRemoveThreadWaitBlocks s thread).wakeThread thread

/-- The loop of `KsWaitTest`, from an entry of the wait list. -/
def waitTestLoop (signaledObject : Object) : Nat → ListEntry Thread Object → Dispatcher Thread Object →
    Option (Dispatcher Thread Object)
  | 0, _, _ => none
  | fuel + 1, entry, s =>
    if entry = .waitListHead signaledObject then some s
    else
      let nextEntry := s.links.flink entry
      match entry with
      | .waitListEntry thread _ =>
        match ksiThreadWaitIsSatisfied s thread signaledObject with
        | some signaledIndex =>
          if (s.thread thread).state = .waiting then
            let s := ksiSatisfyThreadWait s thread signaledIndex
            if !s.isNotification signaledObject && decide (s.signalState signaledObject ≤ 0) then some s
            else waitTestLoop signaledObject fuel nextEntry s
          else waitTestLoop signaledObject fuel nextEntry s
        | none => waitTestLoop signaledObject fuel nextEntry s
      | _ => none

def ksWaitTest (fuel : Nat) (s : Dispatcher Thread Object) (signaledObject : Object) :
    Option (Dispatcher Thread Object) :=
  waitTestLoop signaledObject fuel (s.links.flink (.waitListHead signaledObject)) s

/-- The test that follows a signal, where there is a waiter. -/
def testWaiters (fuel : Nat) (s : Dispatcher Thread Object) (object : Object) : Option (Dispatcher Thread Object) :=
  if s.links.isListEmpty (.waitListHead object) then some s else ksWaitTest fuel s object

def ksInitializeMutant (s : Dispatcher Thread Object) (currentThread : Thread) (mutant : Object)
    (initialOwner : Bool) : Dispatcher Thread Object :=
  let links := (s.links.initializeListHead (.mutantListEntry mutant)).initializeListHead (.waitListHead mutant)
  { s with
    links :=
      if initialOwner then links.insertTailList (.mutantListHead currentThread) (.mutantListEntry mutant)
      else links
    ownerThread := Function.update s.ownerThread mutant (if initialOwner then some currentThread else none)
    header := Function.update s.header mutant ⟨.mutantObject, if initialOwner then 0 else 1⟩ }

def ksReleaseMutant (fuel : Nat) (s : Dispatcher Thread Object) (currentThread : Thread) (mutant : Object)
    (wait : Bool) : Option (Dispatcher Thread Object × Except WaitStatus Int) :=
  if ¬s.isMutant mutant then some (s, .error .invalidParameter)
  else if s.ownerThread mutant ≠ some currentThread then some (s, .error .accessDenied)
  else
    let previousState := s.signalState mutant
    let s :=
      { s with
        links := s.links.removeEntryList (.mutantListEntry mutant)
        ownerThread := Function.update s.ownerThread mutant none }
    (testWaiters fuel (s.setSignal mutant 1) mutant).map fun s =>
      (s.setWaitNext currentThread wait, .ok previousState)

def ksSetEvent (fuel : Nat) (s : Dispatcher Thread Object) (currentThread : Thread) (event : Object)
    (wait : Bool) : Option (Dispatcher Thread Object × Int) :=
  if (s.header event).type = .eventNotificationObject ∧ s.signalState event = 1 ∧ ¬wait then some (s, 1)
  else
    let previousState := s.signalState event
    let s := s.setSignal event 1
    (if previousState = 0 then testWaiters fuel s event else some s).map fun s =>
      (s.setWaitNext currentThread wait, previousState)

def ksReleaseSemaphore (fuel : Nat) (s : Dispatcher Thread Object) (currentThread : Thread)
    (semaphore : Object) (adjustment : Int) (wait : Bool) : Option (Dispatcher Thread Object × Int) :=
  let initialState := s.signalState semaphore
  let state := initialState + adjustment
  if s.limit semaphore < state ∨ initialState > state then none
  else
    let s := s.setSignal semaphore state
    (if initialState = 0 then testWaiters fuel s semaphore else some s).map fun s =>
      (s.setWaitNext currentThread wait, initialState)

/-- What `KsiCheckTimerExpiration` does to a timer under the dispatcher lock. -/
def signalTimer (fuel : Nat) (s : Dispatcher Thread Object) (timer : Object) : Option (Dispatcher Thread Object) :=
  testWaiters fuel (s.setSignal timer 1) timer

def insertWaitBlock (thread : Thread) (s : Dispatcher Thread Object) (block : Object × Fin 3) :
    Dispatcher Thread Object :=
  let entry := .waitListEntry thread block.2
  { s.setThread thread ((s.thread thread).setBlock block.2 (some block.1)) with
    links := (s.links.initializeListHead entry).insertTailList (.waitListHead block.1) entry }

/-- The status of a wait that returns at once; a thread that is parked goes on in `finishWait`. -/
def ksWaitForMultipleObjects (s : Dispatcher Thread Object) (currentThread : Thread)
    (objects : List (Option Object)) (waitType : KWaitType) : Dispatcher Thread Object × Option WaitStatus :=
  if objects.length = 0 ∨ objects.length > 3 then (s, some .invalidParameter)
  else
    match objects.mapM id with
    | none => (s, some .invalidParameter)
    | some objects =>
      let s := s.setThread currentThread { s.thread currentThread with waitNext := false }
      match ksiAreObjectsSignaled s objects waitType with
      | some signaledIndex =>
        let s := ksiConsumeObjectSignals s objects waitType signaledIndex
        match waitType with
        | .waitAny => (objects[signaledIndex]?.elim s (ksiAssignMutantOwner s currentThread), some .success)
        | .waitAll =>
          (objects.foldl (fun s object => ksiAssignMutantOwner s currentThread object) s, some .success)
      | none =>
        let s := (objects.zip threadWaitObjects).foldl (insertWaitBlock currentThread) s
        (s.setThread currentThread
          { s.thread currentThread with
            waitType := waitType
            waitStatus := .pending
            state := .waiting }, none)

/-- The rest of the wait, when the scheduler has picked the thread again. -/
def finishWait (s : Dispatcher Thread Object) (currentThread : Thread) :
    Dispatcher Thread Object × WaitStatus :=
  let s := s.setThread currentThread { s.thread currentThread with state := .running }
  let s := ksiRemoveThreadWaitBlocks s currentThread
  (s, (s.thread currentThread).waitStatus)

inductive DispatcherAction (Thread Object : Type) where
  | initializeMutant (thread : Thread) (mutant : Object) (initialOwner : Bool)
  | wait (thread : Thread) (objects : List (Option Object)) (waitType : KWaitType)
  | resume (thread : Thread)
  | setEvent (thread : Thread) (event : Object) (wait : Bool)
  | releaseSemaphore (thread : Thread) (semaphore : Object) (adjustment : Int) (wait : Bool)
  | releaseMutant (thread : Thread) (mutant : Object) (wait : Bool)
  | expireTimer (timer : Object)

def dispatcherStep (fuel : Nat) (s : Dispatcher Thread Object) :
    DispatcherAction Thread Object → Option (Dispatcher Thread Object)
  | .initializeMutant thread mutant initialOwner => some (ksInitializeMutant s thread mutant initialOwner)
  | .wait thread objects waitType => some (ksWaitForMultipleObjects s thread objects waitType).1
  | .resume thread => some (finishWait s thread).1
  | .setEvent thread event wait => (ksSetEvent fuel s thread event wait).map Prod.fst
  | .releaseSemaphore thread semaphore adjustment wait =>
    (ksReleaseSemaphore fuel s thread semaphore adjustment wait).map Prod.fst
  | .releaseMutant thread mutant wait => (ksReleaseMutant fuel s thread mutant wait).map Prod.fst
  | .expireTimer timer => signalTimer fuel s timer

omit [DecidableEq Thread] [DecidableEq Object] in
/-- Who calls what: a thread that runs, and an operation on an object of its type. An
event and a semaphore may also be signalled from an interrupt. -/
def Callable (s : Dispatcher Thread Object) : DispatcherAction Thread Object → Prop
  | .wait thread _ _ | .initializeMutant thread _ _ | .releaseMutant thread _ _ =>
    (s.thread thread).state = .running
  | .resume thread => (s.thread thread).state = .ready
  | .setEvent _ event _ => (s.header event).type = .eventNotificationObject ∨
      (s.header event).type = .eventSynchronizationObject
  | .releaseSemaphore _ semaphore _ _ => (s.header semaphore).type = .semaphoreObject
  | .expireTimer timer => (s.header timer).type = .timerSynchronizationObject

def DispatcherStep (s : Dispatcher Thread Object) (action : DispatcherAction Thread Object)
    (s' : Dispatcher Thread Object) : Prop :=
  Callable s action ∧ ∃ fuel, dispatcherStep fuel s action = some s'

end VeaOS.Ks
