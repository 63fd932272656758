import VeaOS.Ob.TopReferences

/-! The tree of device nodes. Buses report the devices below them, and a node is
made for every device that has none. -/
namespace VeaOS.Pnp

inductive DevnodeState where
  | unspecified
  | uninitialized
  | initialized
  | driversAdded
  | resourcesAssigned
  | startPending
  | startCompletion
  | startPostWork
  | started
  | queryStopped
  | stopped
  | restartCompletion
  | enumeratePending
  | enumerateCompletion
  | awaitingQueuedDeletion
  | awaitingQueuedRemoval
  | queryRemoved
  | removePendingCloses
  | removed
  | deletePendingCloses
  | deleted
  deriving DecidableEq

structure DevnodeFlags where
  enumerated : Bool
  problem : Bool
  reenumerate : Bool
  deviceGone : Bool
  hasBootConfig : Bool

structure DeviceNode (Device : Type) where
  physicalDeviceObject : Device
  parent : Option Nat
  sibling : Option Nat
  child : Option Nat
  lastChild : Option Nat
  state : DevnodeState
  previousState : DevnodeState
  pendingDeviceRelations : Option (List Device)
  flags : DevnodeFlags
  lastStateCompletionStatus : VeaStatus
  level : BitVec 32
  problem : BitVec 32
  capabilityFlags : BitVec 32

/-- Nodes are numbered as they are allocated, and none is given back. -/
structure DeviceTree (Device : Type) where
  nodes : Nat → DeviceNode Device
  count : Nat
  deviceNode : Device → Option Nat

/-- What a walk of the tree does to the world around it. A helper leaves the
reference on the top of a stack that its lookup took; what it takes and drops
again is not listed. -/
inductive WalkEvent (Device : Type) where
  | reference (device : Device)
  | dereference (device : Device)
  | left (device : Device)
  | visit (node : Nat)
  | addDevice (node : Nat) (status : VeaStatus)
  | start (node : Nat) (status : VeaStatus)
  deriving DecidableEq

/-- A request to a stack of devices, where the packet is there, and its answer. -/
structure StackRequest where
  oip : Bool
  returned : VeaStatus
  completed : VeaStatus

def StackRequest.status (request : StackRequest) : VeaStatus :=
  if !request.oip then statusInsufficientResources
  else if request.returned = statusPending then request.completed else request.returned

/-- What comes of the allocations and requests that a new node needs. -/
structure CreationAnswers where
  pool : Bool
  deviceId : StackRequest
  instanceId : StackRequest
  pathPool : Bool
  resources : StackRequest
  requirements : StackRequest

/-- The status, and how many references stay on the top of the stack. -/
def CreationAnswers.instancePath (answers : CreationAnswers) : VeaStatus × Nat :=
  if !answers.deviceId.status.isSuccess then (answers.deviceId.status, 2)
  else if !answers.instanceId.status.isSuccess then (answers.instanceId.status, 3)
  else if !answers.pathPool then (statusInsufficientResources, 3)
  else (statusSuccess, 3)

section Model
variable {Device : Type} [DecidableEq Device]

namespace DeviceTree
variable (σ : DeviceTree Device) (n : Nat)

def modify (change : DeviceNode Device → DeviceNode Device) : DeviceTree Device :=
  { σ with nodes := Function.update σ.nodes n (change (σ.nodes n)) }

def obioSetDevNodeState (state : DevnodeState) : DeviceTree Device :=
  if (σ.nodes n).state = state then σ
  else σ.modify n fun node => { node with state := state, previousState := node.state }

def obioSetDevNodeProblem (problem : BitVec 32) : DeviceTree Device :=
  σ.modify n fun node => { node with flags := { node.flags with problem := true }, problem := problem }

/-- The nodes that a loop over siblings meets; nothing where it does not end. -/
def siblingsFrom : Nat → Option Nat → Option (List Nat)
  | _, none => some []
  | 0, some _ => none
  | fuel + 1, some c => (siblingsFrom fuel (σ.nodes c).sibling).map (c :: ·)

def childList : Option (List Nat) := σ.siblingsFrom σ.count (σ.nodes n).child

def obioInsertDeviceNode (parentNode : Nat) : DeviceTree Device :=
  let σ := σ.modify n fun node => { node with parent := some parentNode, sibling := none }
  let σ :=
    match (σ.nodes parentNode).lastChild with
    | none => σ.modify parentNode fun node => { node with child := some n, lastChild := some n }
    | some lastChild =>
      let σ := σ.modify lastChild fun node => { node with sibling := some n }
      σ.modify parentNode fun node => { node with lastChild := some n }
  σ.modify n fun node => { node with level := (σ.nodes parentNode).level + 1 }

/-- The root's devices are linked without a level. -/
def obioAddDeviceNodeChild (parent child : Option Nat) : DeviceTree Device × VeaStatus :=
  match parent, child with
  | some parent, some child =>
    if parent = child then
      (σ, 0xC000000D)
    else
      let σ := σ.modify child fun node => { node with parent := some parent, sibling := none }
      let σ :=
        match (σ.nodes parent).lastChild with
        | some lastChild => σ.modify lastChild fun node => { node with sibling := some child }
        | none => σ.modify parent fun node => { node with child := some child }
      (σ.modify parent fun node => { node with lastChild := some child }, statusSuccess)
  | _, _ => (σ, 0xC000000D)

end DeviceTree

def zeroNode (pdo : Device) : DeviceNode Device where
  physicalDeviceObject := pdo
  parent := none
  sibling := none
  child := none
  lastChild := none
  state := .uninitialized
  previousState := .uninitialized
  pendingDeviceRelations := none
  flags := ⟨false, false, false, false, false⟩
  lastStateCompletionStatus := 0
  level := 0
  problem := 0
  capabilityFlags := 0

/-- The requests on the way go to the top of the device's stack. -/
def obioCreateDeviceNode (top : Device → Device) (answers : CreationAnswers) (σ : DeviceTree Device)
    (pdo : Device) : DeviceTree Device × Option Nat × List (WalkEvent Device) :=
  if !answers.pool then
    (σ, none, [])
  else
    let (status, references) := answers.instancePath
    let log := List.replicate references (.left (top pdo))
    if !status.isSuccess then
      (σ, none, log)
    else
      let newNode := { zeroNode pdo with
        flags := ⟨false, false, false, false, answers.resources.status.isSuccess⟩ }
      ({ nodes := Function.update σ.nodes σ.count newNode
         count := σ.count + 1
         deviceNode := Function.update σ.deviceNode pdo (some σ.count) },
        some σ.count, log ++ [.left (top pdo), .left (top pdo)])

def obioAllocateZeroDeviceNode (top : Device → Device) (answers : CreationAnswers) (σ : DeviceTree Device)
    (pdo : Device) : DeviceTree Device × Option Nat × List (WalkEvent Device) :=
  obioCreateDeviceNode top answers σ pdo

def enumerateEntry (top : Device → Device) (answers : CreationAnswers) (deviceNode : Nat) (σ : DeviceTree Device)
    (childDeviceObject : Device) : DeviceTree Device × List (WalkEvent Device) :=
  match σ.deviceNode childDeviceObject with
  | none =>
    match obioAllocateZeroDeviceNode top answers σ childDeviceObject with
    | (σ, some child, log) =>
      let σ := σ.obioInsertDeviceNode child deviceNode
      let σ := σ.obioSetDevNodeState child .initialized
      (σ.modify child fun node =>
        { node with flags := { node.flags with reenumerate := true, enumerated := true } }, log)
    | (σ, none, log) => (σ, log ++ [.dereference childDeviceObject])
  | some child =>
    (σ.modify child fun node => { node with flags := { node.flags with enumerated := true } },
      [.dereference childDeviceObject])

def enumerateEntries (top : Device → Device) (creation : Nat → CreationAnswers) (deviceNode : Nat) :
    Nat → DeviceTree Device → List Device → DeviceTree Device × List (WalkEvent Device)
  | _, σ, [] => (σ, [])
  | i, σ, device :: rest =>
    let (σ, log) := enumerateEntry top (creation i) deviceNode σ device
    let (σ, more) := enumerateEntries top creation deviceNode (i + 1) σ rest
    (σ, log ++ more)

def clearEnumerated (σ : DeviceTree Device) (child : Nat) : DeviceTree Device :=
  σ.modify child fun node => { node with flags := { node.flags with enumerated := false } }

def markGone (σ : DeviceTree Device) (child : Nat) : DeviceTree Device :=
  if !(σ.nodes child).flags.enumerated && !(σ.nodes child).flags.deviceGone then
    let σ := σ.modify child fun node => { node with flags := { node.flags with deviceGone := true } }
    σ.obioSetDevNodeState child .awaitingQueuedRemoval
  else
    σ

/-- Nothing where a loop over the children does not end. -/
def obioEnumerateDeviceNode (top : Device → Device) (creation : Nat → CreationAnswers) (σ : DeviceTree Device)
    (deviceNode : Nat) : Option (DeviceTree Device × VeaStatus × List (WalkEvent Device)) :=
  let status := (σ.nodes deviceNode).lastStateCompletionStatus
  let deviceRelations := (σ.nodes deviceNode).pendingDeviceRelations
  let σ := σ.modify deviceNode fun node => { node with pendingDeviceRelations := none }
  if !status.isSuccess then
    some (σ.obioSetDevNodeState deviceNode .started, status, (deviceRelations.getD []).map .dereference)
  else
    match deviceRelations with
    | none => some (σ.obioSetDevNodeState deviceNode .started, statusSuccess, [])
    | some devices => do
        let children ← σ.childList deviceNode
        let σ := children.foldl clearEnumerated σ
        let (σ, log) := enumerateEntries top creation deviceNode 0 σ devices
        let children ← σ.childList deviceNode
        let σ := children.foldl markGone σ
        some (σ.obioSetDevNodeState deviceNode .started, statusSuccess, log)

end Model
end VeaOS.Pnp
