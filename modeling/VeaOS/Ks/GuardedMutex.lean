import Mathlib.Data.BitVec

/-! Guarded mutexes. One word holds the lock bit, a bit for a waiter that has
been woken, and the number of waiters; the waiters block on a gate. -/
namespace VeaOS.Ks

def gmLockBit : BitVec 32 := 0x1
def gmLockWaiterWoken : BitVec 32 := 0x2
def gmLockWaiterInc : BitVec 32 := 0x4

/-- Whether a call is one of the plain routines or of those named unsafe, which
do not enter or leave a guarded region. -/
inductive GuardedForm where
  | guarded
  | bare
  deriving DecidableEq

structure KGate (Thread : Type) where
  signalState : Nat
  waitListHead : List Thread

structure KGuardedMutex (Thread : Type) where
  count : BitVec 32
  owner : Option Thread
  contention : BitVec 32
  gate : KGate Thread
  specialApcDisable : BitVec 16

def ksInitializeGuardedMutex (Thread : Type) : KGuardedMutex Thread where
  count := gmLockBit
  owner := none
  contention := 0
  gate := ⟨0, []⟩
  specialApcDisable := 0

/-- Where a thread is in the routines of the mutex, by what it does next. The
form of an acquisition goes on until the owner is stored. -/
inductive GuardedPoint where
  | outside
  /-- Reads the word. -/
  | fetching (form : GuardedForm) (woken : Bool)
  | exchanging (form : GuardedForm) (woken : Bool) (oldValue : BitVec 32)
  /-- Calls `KsWaitForGate`. -/
  | gating (form : GuardedForm)
  | blocked (form : GuardedForm)
  /-- Stores the owner. -/
  | acquired (form : GuardedForm)
  | holding
  /-- Adds the lock bit. -/
  | releasing (form : GuardedForm)
  /-- Exchanges the word for one with a waiter woken. -/
  | waking (form : GuardedForm) (oldValue : BitVec 32)
  /-- Calls `KsSignalGate`. -/
  | signalling (form : GuardedForm)

structure GuardedState (Thread : Type) where
  mutex : KGuardedMutex Thread
  point : Thread → GuardedPoint
  /-- Of each thread. -/
  specialApcDisable : Thread → BitVec 16

def interlockedBitTestAndReset (word bit : BitVec 32) : Bool × BitVec 32 :=
  (word &&& bit ≠ 0, word &&& ~~~bit)

def interlockedCompareExchange (target exchange comperand : BitVec 32) : BitVec 32 × BitVec 32 :=
  (target, if target = comperand then exchange else target)

def bitsToRemove (woken : Bool) : BitVec 32 :=
  if woken then gmLockBit ||| gmLockWaiterWoken else gmLockBit

def bitsToAdd (woken : Bool) : BitVec 32 :=
  if woken then gmLockWaiterWoken else gmLockWaiterInc

inductive GuardedAction (Thread : Type) where
  /-- `KsAcquireGuardedMutex` and its unsafe form, up to the bit test. -/
  | acquire (thread : Thread) (form : GuardedForm)
  | tryToAcquire (thread : Thread)
  | fetch (thread : Thread)
  | exchange (thread : Thread)
  | waitForGate (thread : Thread)
  | storeOwner (thread : Thread)
  /-- `KsReleaseGuardedMutex` and its unsafe form, up to the owner's removal. -/
  | clearOwner (thread : Thread) (form : GuardedForm)
  | exchangeAdd (thread : Thread)
  | wake (thread : Thread)
  | signalGate (thread : Thread)

variable {Thread : Type} [DecidableEq Thread]

namespace GuardedState
variable (σ : GuardedState Thread)

def goto (thread : Thread) (point : GuardedPoint) : GuardedState Thread :=
  { σ with point := Function.update σ.point thread point }

def setCount (count : BitVec 32) : GuardedState Thread :=
  { σ with mutex := { σ.mutex with count := count } }

def addContention : GuardedState Thread :=
  { σ with mutex := { σ.mutex with contention := σ.mutex.contention + 1 } }

/-- Stores the owner, and in the guarded form its count too. -/
def storeOwner (thread : Thread) : GuardedForm → GuardedState Thread
  | .guarded =>
    { σ with mutex := { σ.mutex with owner := some thread, specialApcDisable := σ.specialApcDisable thread } }
  | .bare => { σ with mutex := { σ.mutex with owner := some thread } }

def clearOwner : GuardedState Thread :=
  { σ with mutex := { σ.mutex with owner := none } }

def setGate (gate : KGate Thread) : GuardedState Thread :=
  { σ with mutex := { σ.mutex with gate := gate } }

def addApcDisable (thread : Thread) (change : BitVec 16) : GuardedState Thread :=
  { σ with
    specialApcDisable := Function.update σ.specialApcDisable thread (σ.specialApcDisable thread + change) }

/-- `KsEnterGuardedRegionThread` -/
def enterGuardedRegion (thread : Thread) : GuardedForm → GuardedState Thread
  | .guarded => σ.addApcDisable thread (-1)
  | .bare => σ

/-- `KsLeaveGuardedRegionThread`, but for the delivery of APCs. -/
def leaveGuardedRegion (thread : Thread) : GuardedForm → GuardedState Thread
  | .guarded => σ.addApcDisable thread 1
  | .bare => σ

end GuardedState

def ksWaitForGate (σ : GuardedState Thread) (thread : Thread) (form : GuardedForm) :
    GuardedState Thread :=
  if σ.mutex.gate.signalState ≠ 0 then
    (σ.setGate { σ.mutex.gate with signalState := 0 }).goto thread (.fetching form true)
  else
    (σ.setGate { σ.mutex.gate with waitListHead := σ.mutex.gate.waitListHead ++ [thread] }).goto thread
      (.blocked form)

/-- A thread that was blocked goes on in `KsiAcquireGuardedMutex`. -/
def ptWakeThread (σ : GuardedState Thread) (thread : Thread) : GuardedState Thread :=
  match σ.point thread with
  | .blocked form => σ.goto thread (.fetching form true)
  | _ => σ

def ksSignalGate (σ : GuardedState Thread) : GuardedState Thread :=
  match σ.mutex.gate.waitListHead with
  | thread :: rest => ptWakeThread (σ.setGate { σ.mutex.gate with waitListHead := rest }) thread
  | [] => σ.setGate { σ.mutex.gate with signalState := 1 }

/-- The compare-exchange of a release and whether the gate is signalled after
it. `KsReleaseGuardedMutex` tests the value found against zero, and
`KsReleaseGuardedMutexUnsafe` against the value expected. -/
def releaseExchange (form : GuardedForm) (count oldValue : BitVec 32) : Bool × BitVec 32 :=
  let newValue := oldValue + gmLockWaiterWoken - gmLockWaiterInc
  let (found, left) := interlockedCompareExchange count newValue oldValue
  match form with
  | .guarded => (found ≠ 0, left)
  | .bare => (found = oldValue, left)

/-- One step of a thread in the routines of the mutex. -/
def guardedStep (σ : GuardedState Thread) : GuardedAction Thread → Option (GuardedState Thread)
  | .acquire thread form =>
    match σ.point thread with
    | .outside =>
      let σ := σ.enterGuardedRegion thread form
      let (unlocked, count) := interlockedBitTestAndReset σ.mutex.count gmLockBit
      let σ := σ.setCount count
      if unlocked then some (σ.goto thread (.acquired form))
      else some (σ.addContention.goto thread (.fetching form false))
    | _ => none
  | .tryToAcquire thread =>
    match σ.point thread with
    | .outside =>
      let σ := σ.enterGuardedRegion thread .guarded
      let (unlocked, count) := interlockedBitTestAndReset σ.mutex.count gmLockBit
      let σ := σ.setCount count
      if unlocked then some (σ.goto thread (.acquired .guarded))
      else some (σ.leaveGuardedRegion thread .guarded)
    | _ => none
  | .fetch thread =>
    match σ.point thread with
    | .fetching form woken => some (σ.goto thread (.exchanging form woken σ.mutex.count))
    | _ => none
  | .exchange thread =>
    match σ.point thread with
    | .exchanging form woken oldValue =>
      let locked := oldValue &&& gmLockBit = 0
      let newValue := if locked then oldValue + bitsToAdd woken else oldValue ^^^ bitsToRemove woken
      let (found, left) := interlockedCompareExchange σ.mutex.count newValue oldValue
      let σ := σ.setCount left
      if found = oldValue then
        some (σ.goto thread (if locked then .gating form else .acquired form))
      else some (σ.goto thread (.exchanging form woken found))
    | _ => none
  | .waitForGate thread =>
    match σ.point thread with
    | .gating form => some (ksWaitForGate σ thread form)
    | _ => none
  | .storeOwner thread =>
    match σ.point thread with
    | .acquired form => some ((σ.storeOwner thread form).goto thread .holding)
    | _ => none
  | .clearOwner thread form =>
    match σ.point thread with
    | .holding => some (σ.clearOwner.goto thread (.releasing form))
    | _ => none
  | .exchangeAdd thread =>
    match σ.point thread with
    | .releasing form =>
      let oldValue := σ.mutex.count
      let σ := σ.setCount (oldValue + gmLockBit)
      if oldValue ≠ 0 ∧ oldValue &&& gmLockWaiterWoken = 0 then
        some (σ.goto thread (.waking form (oldValue + gmLockBit)))
      else some ((σ.leaveGuardedRegion thread form).goto thread .outside)
    | _ => none
  | .wake thread =>
    match σ.point thread with
    | .waking form oldValue =>
      let (signal, count) := releaseExchange form σ.mutex.count oldValue
      let σ := σ.setCount count
      if signal then some (σ.goto thread (.signalling form))
      else some ((σ.leaveGuardedRegion thread form).goto thread .outside)
    | _ => none
  | .signalGate thread =>
    match σ.point thread with
    | .signalling form =>
      some (((ksSignalGate σ).leaveGuardedRegion thread form).goto thread .outside)
    | _ => none

end VeaOS.Ks
