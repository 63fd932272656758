import VeaOS.Ob.DeviceTree

/-! The queue of device actions. A flag tells whether a worker is on its way, but
requests from the boot path start a worker of their own whatever the flag says. -/
namespace VeaOS.Pnp
open Transition

inductive DeviceAction where
  | enumDeviceTree
  | enumRootDevices
  | resetDevice
  | addBootDevices
  | startDevice
  | queryState
  deriving DecidableEq

def DevnodeState.value : DevnodeState → BitVec 32
  | .unspecified => 0x300
  | .uninitialized => 0x301
  | .initialized => 0x302
  | .driversAdded => 0x303
  | .resourcesAssigned => 0x304
  | .startPending => 0x305
  | .startCompletion => 0x306
  | .startPostWork => 0x307
  | .started => 0x308
  | .queryStopped => 0x309
  | .stopped => 0x30a
  | .restartCompletion => 0x30b
  | .enumeratePending => 0x30c
  | .enumerateCompletion => 0x30d
  | .awaitingQueuedDeletion => 0x30e
  | .awaitingQueuedRemoval => 0x30f
  | .queryRemoved => 0x310
  | .removePendingCloses => 0x311
  | .removed => 0x312
  | .deletePendingCloses => 0x313
  | .deleted => 0x314

def dnfProblem : BitVec 32 := 0x40

structure DeviceActionRequest (Device : Type) where
  id : Nat
  deviceObject : Device
  action : DeviceAction
  completionEvent : Bool
  completionStatus : Bool
  deriving DecidableEq

/-- What a walk of the state machine and a query of the state make of a node. -/
structure NodeServices (Device : Type) where
  obioDevNodeStateMachine : DeviceNode Device → DeviceNode Device
  obioUpdateDeviceState : DeviceNode Device → DeviceNode Device × VeaStatus

inductive ActionEvent (Device : Type) where
  | queued (request : DeviceActionRequest Device)
  | processed (request : DeviceActionRequest Device) (found : DeviceNode Device) (status : VeaStatus)
  | completed (id : Nat) (status : VeaStatus)
  | signalled (id : Nat)
  | reference (device : Device)
  | dereference (device : Device)
  | initializedItem (onQueue : Bool)
  | queuedItem (onQueue : Bool)

/-- The queue and everyone who is at work on it. Callers that have set the flag
first prepare the work item and then queue it; workers wait for the lock or process
a request. -/
structure ActionQueue (Device : Type) where
  nodes : Device → DeviceNode Device
  inProgress : Bool
  requests : List (DeviceActionRequest Device)
  count : Nat
  initializing : Nat
  inserting : Nat
  itemQueued : Nat
  waiting : Nat
  processing : List (DeviceActionRequest Device)
  log : List (ActionEvent Device)

inductive ActionStep (Device : Type) where
  | queue (deviceObject : Device) (action : DeviceAction) (completionEvent completionStatus : Bool)
  | ulInitializeWorkItem
  | ulQueueWorkItem
  | start
  | take
  | finish (request : DeviceActionRequest Device) (services : NodeServices Device)
  | disturb (device : Device) (node : DeviceNode Device)

section Model
variable {Device : Type} [DecidableEq Device]

/-- The test for a problem is made on the state, not on the flags. -/
def DeviceNode.startable (node : DeviceNode Device) : Bool :=
  node.state = .initialized && node.state.value &&& dnfProblem = 0

def queryState (services : NodeServices Device) (node : DeviceNode Device) : DeviceNode Device × VeaStatus :=
  if node.state = .started then
    let (node, status) := services.obioUpdateDeviceState node
    (if status.isSuccess then services.obioDevNodeStateMachine node else node, statusSuccess)
  else
    (node, statusSuccess)

def startDevice (services : NodeServices Device) (node : DeviceNode Device) : DeviceNode Device × VeaStatus :=
  if node.startable then (services.obioDevNodeStateMachine node, statusSuccess) else (node, statusUnsuccessful)

/-- The switch of the worker. The start of a device has no break and goes on to
the query of its state. -/
def processAction (services : NodeServices Device) (action : DeviceAction) (node : DeviceNode Device) :
    DeviceNode Device × VeaStatus :=
  match action with
  | .addBootDevices => (node, statusSuccess)
  | .enumRootDevices | .enumDeviceTree =>
    (services.obioDevNodeStateMachine { node with flags := { node.flags with reenumerate := true } }, statusSuccess)
  | .resetDevice =>
    (if node.state = .removed then { node with state := .uninitialized } else node, statusSuccess)
  | .startDevice =>
    let (node, _) := startDevice services node
    queryState services node
  | .queryState => queryState services node

def ownStatus (services : NodeServices Device) (action : DeviceAction) (node : DeviceNode Device) : VeaStatus :=
  match action with
  | .startDevice => (startDevice services node).2
  | action => (processAction services action node).2

def DeviceAction.isInstant (action : DeviceAction) : Bool :=
  action = .enumRootDevices || action = .addBootDevices

namespace ActionQueue

def empty (nodes : Device → DeviceNode Device) : ActionQueue Device := ⟨nodes, false, [], 0, 0, 0, 0, 0, [], []⟩

def obioQueueDeviceAction (q : ActionQueue Device) (deviceObject : Device) (action : DeviceAction)
    (completionEvent completionStatus : Bool) : ActionQueue Device :=
  let request := ⟨q.count, deviceObject, action, completionEvent, completionStatus⟩
  let q := { q with
    count := q.count + 1
    requests := q.requests ++ [request]
    log := q.log ++ [.reference deviceObject, .queued request] }
  if action.isInstant then { q with inProgress := true, waiting := q.waiting + 1 }
  else if q.inProgress then q
  else { q with inProgress := true, initializing := q.initializing + 1 }

/-- The worker takes the head of the list, or ends where there is none. -/
def take (q : ActionQueue Device) : ActionQueue Device :=
  match q.requests with
  | [] => { q with inProgress := false, waiting := q.waiting - 1 }
  | request :: rest =>
    { q with requests := rest, waiting := q.waiting - 1, processing := q.processing ++ [request] }

def completion (request : DeviceActionRequest Device) (found : DeviceNode Device) (status : VeaStatus) :
    List (ActionEvent Device) :=
  [.processed request found status] ++ (if request.completionStatus then [.completed request.id status] else []) ++
    (if request.completionEvent then [.signalled request.id] else [])

def finish (q : ActionQueue Device) (request : DeviceActionRequest Device) (services : NodeServices Device) :
    ActionQueue Device :=
  let found := q.nodes request.deviceObject
  let (node, status) := processAction services request.action found
  { q with
    nodes := Function.update q.nodes request.deviceObject node
    processing := q.processing.erase request
    waiting := q.waiting + 1
    log := q.log ++ completion request found status ++ [.dereference request.deviceObject] }

def step (q : ActionQueue Device) : ActionStep Device → Option (ActionQueue Device)
  | .queue deviceObject action completionEvent completionStatus =>
    some (q.obioQueueDeviceAction deviceObject action completionEvent completionStatus)
  | .ulInitializeWorkItem =>
    if q.initializing = 0 then none
    else some { q with
      initializing := q.initializing - 1
      inserting := q.inserting + 1
      log := q.log ++ [.initializedItem (0 < q.itemQueued)] }
  | .ulQueueWorkItem =>
    if q.inserting = 0 then none
    else some { q with
      inserting := q.inserting - 1
      itemQueued := q.itemQueued + 1
      log := q.log ++ [.queuedItem (0 < q.itemQueued)] }
  | .start =>
    if q.itemQueued = 0 then none
    else some { q with itemQueued := q.itemQueued - 1, waiting := q.waiting + 1 }
  | .take => if q.waiting = 0 then none else some q.take
  | .finish request services => if request ∈ q.processing then some (q.finish request services) else none
  | .disturb device node => some { q with nodes := Function.update q.nodes device node }

end ActionQueue
end Model
end VeaOS.Pnp
