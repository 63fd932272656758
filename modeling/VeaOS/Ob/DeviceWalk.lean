import VeaOS.Ob.DeviceTree

/-! The state machine of the device nodes. A walk goes through the tree below a
node, brings each node as far as it gets, and asks the buses for more nodes. -/
namespace VeaOS.Pnp

/-- What comes of the steps on the way to a driver and of its routine. A driver
that is found or loaded is there where the step succeeds. -/
structure AddDeviceAnswers where
  enumRootKey : VeaStatus
  instanceKey : VeaStatus
  serviceSize : VeaStatus
  servicePool : Bool
  serviceValue : VeaStatus
  driverHandle : VeaStatus
  driverReference : VeaStatus
  serviceKey : VeaStatus
  loadDriver : VeaStatus
  entryPool : Bool
  addDeviceRoutine : Option VeaStatus

structure WalkAnswers (Device : Type) where
  systemInit : Bool
  top : Device → Device
  addDevice : AddDeviceAnswers
  start : StackRequest
  relations : StackRequest
  relationList : Option (List Device)
  creation : Nat → CreationAnswers

def problemRegistry : BitVec 32 := 0x13
def problemFailedAdd : BitVec 32 := 0x1F

def DeviceNode.rawDeviceOk {Device : Type} (node : DeviceNode Device) : Bool := node.capabilityFlags.getLsbD 6

section Model
variable {Device : Type} [DecidableEq Device]

def serviceStatus (answers : AddDeviceAnswers) : VeaStatus :=
  if answers.serviceSize = statusBufferTooSmall then
    if answers.servicePool then answers.serviceValue else statusInsufficientResources
  else
    answers.serviceSize

def driverStatus (mustLoadDriver : Bool) (answers : AddDeviceAnswers) : VeaStatus :=
  if answers.driverHandle.isSuccess then answers.driverReference
  else if mustLoadDriver then
    if answers.serviceKey.isSuccess then answers.loadDriver else answers.serviceKey
  else
    statusNotFound

/-- The driver's part: its routine and what follows from it. -/
def callAddDeviceRoutine (top : Device → Device) (σ : DeviceTree Device) (n : Nat) (routine : Option VeaStatus) :
    DeviceTree Device × VeaStatus × List (WalkEvent Device) :=
  let pdo := (σ.nodes n).physicalDeviceObject
  let status := routine.getD statusUnsuccessful
  let log := (routine.map fun status => WalkEvent.addDevice n status).toList
  if status.isSuccess then
    (σ.obioSetDevNodeState n .driversAdded, status, log ++ [.reference (top pdo), .dereference (top pdo)])
  else
    ((σ.obioSetDevNodeProblem n problemFailedAdd).obioSetDevNodeState n .awaitingQueuedRemoval, status, log)

def obioCallDriverAddDevice (top : Device → Device) (answers : AddDeviceAnswers) (σ : DeviceTree Device) (n : Nat)
    (mustLoadDriver : Bool) : DeviceTree Device × VeaStatus × List (WalkEvent Device) :=
  if !answers.enumRootKey.isSuccess then
    (σ, answers.enumRootKey, [])
  else if !answers.instanceKey.isSuccess then
    (σ, answers.instanceKey, [])
  else if answers.serviceSize = statusBufferTooSmall ∧ !answers.servicePool then
    (σ, statusInsufficientResources, [])
  else
    let status := serviceStatus answers
    if status.isSuccess then
      let status := driverStatus mustLoadDriver answers
      if !status.isSuccess then
        (σ, status, [])
      else if !answers.entryPool then
        (σ, statusInsufficientResources, [])
      else
        callAddDeviceRoutine top σ n answers.addDeviceRoutine
    else if status = statusObjectNameNotFound ∧ (σ.nodes n).rawDeviceOk then
      if !answers.entryPool then
        (σ, statusInsufficientResources, [])
      else
        let pdo := (σ.nodes n).physicalDeviceObject
        (σ.obioSetDevNodeState n .driversAdded, statusSuccess, [.reference (top pdo), .dereference (top pdo)])
    else if status = statusObjectTypeMismatch ∧ !(σ.nodes n).flags.problem then
      (σ.obioSetDevNodeProblem n problemRegistry, status, [])
    else
      (σ, status, [])

def obioAssignDeviceResources (σ : DeviceTree Device) (n : Nat) : DeviceTree Device × VeaStatus :=
  (σ.obioSetDevNodeState n .resourcesAssigned, statusSuccess)

/-- The block with the status is cleared and only its second word is passed on. -/
def obioStartDeviceNode (top : Device → Device) (answer : StackRequest) (σ : DeviceTree Device) (n : Nat) :
    DeviceTree Device × VeaStatus × List (WalkEvent Device) :=
  let statusInformation : VeaStatus := 0
  (σ.modify n fun node => { node with lastStateCompletionStatus := statusInformation }, answer.status,
    [.start n answer.status, .left (top (σ.nodes n).physicalDeviceObject)])

def obioStartDeviceFinal (σ : DeviceTree Device) (n : Nat) : DeviceTree Device × VeaStatus :=
  (σ.obioSetDevNodeState n .started, statusSuccess)

/-- The bus takes a reference on every device that it lists. -/
def obioQueryNodeRelations (top : Device → Device) (answer : StackRequest) (list : Option (List Device))
    (σ : DeviceTree Device) (n : Nat) : DeviceTree Device × VeaStatus × List (WalkEvent Device) :=
  let pdo := (σ.nodes n).physicalDeviceObject
  let relations := if answer.oip then list else none
  (σ.modify n fun node =>
      { node with pendingDeviceRelations := relations, lastStateCompletionStatus := answer.status },
    answer.status,
    [.left (top pdo), .left (top pdo)] ++ (relations.getD []).map .reference)

/-- One turn of the switch: whether the node is to be processed again. -/
def processNode (answers : WalkAnswers Device) (σ : DeviceTree Device) (n : Nat) :
    Option (DeviceTree Device × Bool × List (WalkEvent Device)) :=
  match (σ.nodes n).state with
  | .initialized =>
    let (σ, status, log) := obioCallDriverAddDevice answers.top answers.addDevice σ n answers.systemInit
    if status.isSuccess then
      some (σ.obioSetDevNodeState n .driversAdded, true, log)
    else if status ≠ statusNotFound then
      some ((σ.obioSetDevNodeProblem n 1).obioSetDevNodeState n .awaitingQueuedRemoval, false, log)
    else
      some (σ, false, log)
  | .driversAdded =>
    let (σ, status) := obioAssignDeviceResources σ n
    some (σ, status.isSuccess, [])
  | .resourcesAssigned =>
    let (σ, _, log) := obioStartDeviceNode answers.top answers.start σ n
    some (σ.obioSetDevNodeState n .startCompletion, true, log)
  | .startCompletion =>
    if !(σ.nodes n).lastStateCompletionStatus.isSuccess then
      some ((σ.obioSetDevNodeProblem n 1).obioSetDevNodeState n .awaitingQueuedRemoval, true, [])
    else
      some (σ.obioSetDevNodeState n .startPostWork, true, [])
  | .startPostWork =>
    let (σ, _) := obioStartDeviceFinal σ n
    some (σ, true, [])
  | .started =>
    if (σ.nodes n).flags.reenumerate then
      let σ := σ.modify n fun node => { node with flags := { node.flags with reenumerate := false } }
      let (σ, _, log) := obioQueryNodeRelations answers.top answers.relations answers.relationList σ n
      some (σ.obioSetDevNodeState n .enumerateCompletion, true, log)
    else
      some (σ, false, [])
  | .enumerateCompletion => do
      let (σ, _, log) ← obioEnumerateDeviceNode answers.top answers.creation σ n
      return (σ, false, log)
  | _ => some (σ, false, [])

/-- Up to a node with a sibling; nothing where the way up does not end at the start. -/
def climb (σ : DeviceTree Device) (deviceNode : Nat) : Nat → Nat → Option Nat
  | 0, _ => none
  | fuel + 1, currentNode =>
    if currentNode = deviceNode then
      some deviceNode
    else
      match (σ.nodes currentNode).sibling with
      | some sibling => some sibling
      | none => (σ.nodes currentNode).parent.bind (climb σ deviceNode fuel)

def nextNode (σ : DeviceTree Device) (deviceNode currentNode : Nat) : Option Nat :=
  match (σ.nodes currentNode).child with
  | some child =>
    if (σ.nodes currentNode).state = .removed then climb σ deviceNode (σ.count + 1) currentNode
    else some child
  | none => climb σ deviceNode (σ.count + 1) currentNode

structure WalkState (Device : Type) where
  tree : DeviceTree Device
  currentNode : Nat
  running : Bool
  log : List (WalkEvent Device)

/-- One round of the loop. The reference is dropped on the node that is current then. -/
def walkRound (deviceNode : Nat) (answers : WalkAnswers Device) (w : WalkState Device) :
    Option (WalkState Device) := do
  let referenced := (w.tree.nodes w.currentNode).physicalDeviceObject
  let (tree, doProcessAgain, log) ← processNode answers w.tree w.currentNode
  let next ← if doProcessAgain then some w.currentNode else nextNode tree deviceNode w.currentNode
  let visited := if doProcessAgain ∨ next = deviceNode then [] else [.visit next]
  return {
    tree := tree
    currentNode := next
    running := doProcessAgain || next ≠ deviceNode
    log := w.log ++ [.reference referenced] ++ log ++ [.dereference (tree.nodes next).physicalDeviceObject] ++ visited }

def walkStep (deviceNode : Nat) (answers : WalkAnswers Device) (w : WalkState Device) : Option (WalkState Device) :=
  if w.running then walkRound deviceNode answers w else some w

/-- The walk after a number of rounds; nothing where a pointer in it leads nowhere. -/
def obioDevNodeStateMachine (deviceNode : Nat) (answers : Nat → WalkAnswers Device) (σ : DeviceTree Device) :
    Nat → Option (WalkState Device)
  | 0 => some ⟨σ, deviceNode, true, [.visit deviceNode]⟩
  | t + 1 => (obioDevNodeStateMachine deviceNode answers σ t).bind (walkStep deviceNode (answers t))

end Model
end VeaOS.Pnp
