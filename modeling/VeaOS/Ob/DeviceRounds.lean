import VeaOS.Ob.DeviceReports
import VeaOS.Ob.DeviceWalk

/-! What one round does to the node that is current: how far it gets, and what
its state says about the answers to its requests. -/
namespace VeaOS.Pnp

open DeviceNode DeviceTree DevnodeState List WalkEvent

section Events
variable {Device : Type}

def AddSucceeded (log : List (WalkEvent Device)) (n : Nat) : Prop :=
  ∃ status, .addDevice n status ∈ log ∧ status.isSuccess = true

def StartSucceeded (log : List (WalkEvent Device)) (n : Nat) : Prop :=
  ∃ status, .start n status ∈ log ∧ status.isSuccess = true

def RequestFailed (log : List (WalkEvent Device)) (n : Nat) : Prop :=
  ∃ status, (.addDevice n status ∈ log ∨ .start n status ∈ log) ∧ status.isSuccess = false

def WalkEvent.visited : WalkEvent Device → Option Nat
  | .visit n => some n
  | _ => none

def visits (log : List (WalkEvent Device)) : List Nat := log.filterMap WalkEvent.visited

def WalkEvent.about : WalkEvent Device → Option Nat
  | .addDevice n _ => some n
  | .start n _ => some n
  | _ => none

def OnlyReferences (log : List (WalkEvent Device)) : Prop :=
  ∀ event ∈ log, event.about = none ∧ event.visited = none

namespace OnlyReferences
variable {log : List (WalkEvent Device)}

theorem visits (quiet : OnlyReferences log) : visits log = [] :=
  filterMap_eq_nil_iff.mpr fun event member => (quiet event member).2

theorem not_requestFailed (quiet : OnlyReferences log) : ¬ RequestFailed log n := fun ⟨_, member, _⟩ =>
  member.elim (fun added => Option.some_ne_none n (quiet _ added).1)
    fun started => Option.some_ne_none n (quiet _ started).1

end OnlyReferences

theorem visits_append (first second : List (WalkEvent Device)) :
    visits (first ++ second) = visits first ++ visits second := filterMap_append

theorem addSucceeded_append {first second : List (WalkEvent Device)} :
    AddSucceeded (first ++ second) n ↔ AddSucceeded first n ∨ AddSucceeded second n := by
  simp only [AddSucceeded, mem_append, or_and_right, exists_or]

theorem startSucceeded_append {first second : List (WalkEvent Device)} :
    StartSucceeded (first ++ second) n ↔ StartSucceeded first n ∨ StartSucceeded second n := by
  simp only [StartSucceeded, mem_append, or_and_right, exists_or]

theorem requestFailed_append {first second : List (WalkEvent Device)} :
    RequestFailed (first ++ second) n ↔ RequestFailed first n ∨ RequestFailed second n := by
  simp only [RequestFailed, mem_append, ← exists_or]
  refine exists_congr fun status => ?_
  rw [← or_and_right]
  exact and_congr_left fun _ => or_or_or_comm

end Events

section Nodes
variable {Device : Type}

def DevnodeState.isAdded : DevnodeState → Bool
  | .driversAdded | .resourcesAssigned | .startCompletion | .startPostWork | .started | .enumerateCompletion => true
  | _ => false

/-- The start is done, or its answer is at hand and is a success. -/
def DeviceNode.isStarted (node : DeviceNode Device) : Bool :=
  match node.state with
  | .startCompletion => node.lastStateCompletionStatus.isSuccess
  | .startPostWork | .started | .enumerateCompletion => true
  | _ => false

/-- What a node's state says about the requests for it. -/
structure NodeFits (added started failed : Prop) (node : DeviceNode Device) : Prop where
  added : node.state.isAdded = true → added
  started : node.isStarted = true → started
  failed : failed → node.state = .awaitingQueuedRemoval ∧ node.flags.problem = true
  notRaw : node.rawDeviceOk = false

namespace NodeFits
variable {added started failed added' started' failed' : Prop} {node node' : DeviceNode Device}

theorem awaiting (state : node.state = .awaitingQueuedRemoval) (problem : node.flags.problem = true)
    (notRaw : node.rawDeviceOk = false) : NodeFits added started failed node where
  added past := by rw [state] at past; cases past
  started past := by rw [isStarted, state] at past; cases past
  failed _ := ⟨state, problem⟩
  notRaw := notRaw

theorem moved (fits : NodeFits added started failed node) (other : node.state ≠ .awaitingQueuedRemoval)
    (addedAfter : node'.state.isAdded = true → added') (startedAfter : node'.isStarted = true → started')
    (succeeded : ¬ failed') (same : node'.capabilityFlags = node.capabilityFlags) :
    NodeFits added' started' (failed ∨ failed') node' where
  added := addedAfter
  started := startedAfter
  failed either := either.elim (fun before => absurd (fits.failed before).1 other) fun now => absurd now succeeded
  notRaw := by rw [rawDeviceOk, same]; exact fits.notRaw

theorem through (fits : NodeFits added started failed node) (other : node.state ≠ .awaitingQueuedRemoval)
    (addedBefore : node'.state.isAdded = true → node.state.isAdded = true)
    (startedBefore : node'.isStarted = true → node.isStarted = true)
    (same : node'.capabilityFlags = node.capabilityFlags) : NodeFits added started failed node' where
  added past := fits.added (addedBefore past)
  started past := fits.started (startedBefore past)
  failed before := absurd (fits.failed before).1 other
  notRaw := by rw [rawDeviceOk, same]; exact fits.notRaw

theorem mono (fits : NodeFits added started failed node) (addedMore : added → added')
    (startedMore : started → started') (failedLess : failed' → failed) : NodeFits added' started' failed' node where
  added past := addedMore (fits.added past)
  started past := startedMore (fits.started past)
  failed now := fits.failed (failedLess now)
  notRaw := fits.notRaw

end NodeFits

def DevnodeState.stage : DevnodeState → Nat
  | .initialized => 0
  | .driversAdded => 1
  | .resourcesAssigned => 2
  | .startCompletion => 3
  | .startPostWork => 4
  | .started => 5
  | .enumerateCompletion => 6
  | _ => 7

theorem DevnodeState.stage_le (state : DevnodeState) : state.stage ≤ 7 := by
  cases state <;> decide

end Nodes

section Calls
variable {Device : Type} {σ : DeviceTree Device}

def DeviceNode.withProblem (node : DeviceNode Device) (problem : BitVec 32) : DeviceNode Device :=
  { node with flags := { node.flags with problem := true }, problem := problem }

/-- The ways out of the search for a driver and of the call of its routine. -/
inductive CallOutcome (n : Nat) (node : DeviceNode Device) :
    DeviceNode Device → VeaStatus → List (WalkEvent Device) → Prop where
  | added (top : Device) : status.isSuccess = true →
      CallOutcome n node (node.setState .driversAdded) status
        [.addDevice n status, .reference top, .dereference top]
  | failed : status.isSuccess = false →
      CallOutcome n node ((node.withProblem problemFailedAdd).setState .awaitingQueuedRemoval) status
        [.addDevice n status]
  | withoutRoutine : status.isSuccess = false →
      CallOutcome n node ((node.withProblem problemFailedAdd).setState .awaitingQueuedRemoval) status []
  | unserved : status.isSuccess = false → CallOutcome n node node status []
  | mismatch : status.isSuccess = false → CallOutcome n node (node.withProblem problemRegistry) status []

theorem obioSetDevNodeProblem_state (n : Nat) (problem : BitVec 32) (state : DevnodeState) :
    (σ.obioSetDevNodeProblem n problem).obioSetDevNodeState n state =
      σ.modify n fun node => (node.withProblem problem).setState state := by
  rw [obioSetDevNodeState_eq, obioSetDevNodeProblem, modify_modify]
  rfl

theorem callAddDeviceRoutine_outcome (top : Device → Device) (σ : DeviceTree Device) (n : Nat)
    (routine : Option VeaStatus) :
    ∃ change : DeviceNode Device → DeviceNode Device, (∀ node, (change node).place = node.place) ∧
      (callAddDeviceRoutine top σ n routine).1 = σ.modify n change ∧
      CallOutcome n (σ.nodes n) (change (σ.nodes n)) (callAddDeviceRoutine top σ n routine).2.1
        (callAddDeviceRoutine top σ n routine).2.2 := by
  cases routine with
  | none =>
    have fails : statusUnsuccessful.isSuccess = false := by decide
    exact ⟨fun node => (node.withProblem problemFailedAdd).setState .awaitingQueuedRemoval,
      fun node => setState_place _ _, obioSetDevNodeProblem_state _ _ _, .withoutRoutine fails⟩
  | some status =>
    rw [callAddDeviceRoutine]
    by_cases succeeds : status.isSuccess = true
    · simp only [Option.getD_some, succeeds, if_true, obioSetDevNodeState_eq]
      exact ⟨fun node => node.setState .driversAdded, fun node => setState_place _ _, rfl,
        .added _ succeeds⟩
    · simp only [Option.getD_some, succeeds, obioSetDevNodeProblem_state]
      exact ⟨fun node => (node.withProblem problemFailedAdd).setState .awaitingQueuedRemoval,
        fun node => setState_place _ _, rfl, .failed (eq_false_of_ne_true succeeds)⟩

theorem obioCallDriverAddDevice_outcome (top : Device → Device) (answers : AddDeviceAnswers) (σ : DeviceTree Device)
    (n : Nat) (mustLoadDriver : Bool) (notRaw : (σ.nodes n).rawDeviceOk = false) :
    ∃ change : DeviceNode Device → DeviceNode Device, (∀ node, (change node).place = node.place) ∧
      (obioCallDriverAddDevice top answers σ n mustLoadDriver).1 = σ.modify n change ∧
      CallOutcome n (σ.nodes n) (change (σ.nodes n)) (obioCallDriverAddDevice top answers σ n mustLoadDriver).2.1
        (obioCallDriverAddDevice top answers σ n mustLoadDriver).2.2 := by
  have unserved : ∀ status : VeaStatus, status.isSuccess = false →
      ∃ change : DeviceNode Device → DeviceNode Device, (∀ node, (change node).place = node.place) ∧
        (σ, status, ([] : List (WalkEvent Device))).1 = σ.modify n change ∧
        CallOutcome n (σ.nodes n) (change (σ.nodes n)) (σ, status, ([] : List (WalkEvent Device))).2.1
          (σ, status, ([] : List (WalkEvent Device))).2.2 := fun status fails =>
    ⟨id, fun _ => rfl, (modify_unchanged rfl).symm, .unserved fails⟩
  have noPool : statusInsufficientResources.isSuccess = false := by decide
  rw [obioCallDriverAddDevice]
  by_cases enumKey : answers.enumRootKey.isSuccess = true
  · rw [if_neg (by simp [enumKey])]
    by_cases instanceKey : answers.instanceKey.isSuccess = true
    · rw [if_neg (by simp [instanceKey])]
      by_cases outOfPool : answers.serviceSize = statusBufferTooSmall ∧ !answers.servicePool
      · rw [if_pos outOfPool]
        exact unserved _ noPool
      · rw [if_neg outOfPool]
        by_cases service : (serviceStatus answers).isSuccess = true
        · simp only [service, if_true]
          by_cases driver : (driverStatus mustLoadDriver answers).isSuccess = true
          · rw [if_neg (by simp [driver])]
            by_cases entry : answers.entryPool = true
            · rw [if_neg (by simp [entry])]
              exact callAddDeviceRoutine_outcome top σ n answers.addDeviceRoutine
            · rw [if_pos (by simp [entry])]
              exact unserved _ noPool
          · rw [if_pos (by simp [driver])]
            exact unserved _ (eq_false_of_ne_true driver)
        · have fails := eq_false_of_ne_true service
          simp only [service, notRaw, Bool.false_eq_true, and_false, if_false]
          by_cases mismatch : serviceStatus answers = statusObjectTypeMismatch ∧ !(σ.nodes n).flags.problem
          · rw [if_pos mismatch]
            exact ⟨fun node => node.withProblem problemRegistry, fun _ => rfl, rfl, .mismatch fails⟩
          · rw [if_neg mismatch]
            exact unserved _ fails
    · rw [if_pos (by simp [instanceKey])]
      exact unserved _ (eq_false_of_ne_true instanceKey)
  · rw [if_pos (by simp [enumKey])]
    exact unserved _ (eq_false_of_ne_true enumKey)

end Calls

section Accounts
variable {Device : Type} [DecidableEq Device] {asked : Device → Prop}

/-- What an event adds to the count of a device. -/
def WalkEvent.change (d : Device) : WalkEvent Device → Int
  | .reference e => if e = d then 1 else 0
  | .left e => if e = d then 1 else 0
  | .dereference e => if e = d then -1 else 0
  | _ => 0

def balance (d : Device) : List (WalkEvent Device) → Int
  | [] => 0
  | event :: rest => event.change d + balance d rest

/-- How many references helpers leave on a device. -/
def leftOn (d : Device) : List (WalkEvent Device) → Int
  | [] => 0
  | .left e :: rest => (if e = d then 1 else 0) + leftOn d rest
  | _ :: rest => leftOn d rest

def listed (d : Device) (devices : List Device) : Int := devices.count d

def DeviceNode.listedPending (node : DeviceNode Device) (d : Device) : Int :=
  listed d (node.pendingDeviceRelations.getD [])

/-- The count never falls below where it began, if it stands at a height at first. -/
def Covered (d : Device) : Int → List (WalkEvent Device) → Prop
  | height, [] => 0 ≤ height
  | height, event :: rest => 0 ≤ height ∧ Covered d (height + event.change d) rest

/-- The references of a log, against the lists of devices before and after it. -/
structure Accounts (asked : Device → Prop) (node node' : DeviceNode Device) (again : Bool)
    (log : List (WalkEvent Device)) : Prop where
  closes : ∀ d, balance d log + node.listedPending d = leftOn d log + node'.listedPending d
  leaves : ∀ d, leftOn d log ≠ 0 → asked d
  covers : ∀ d, Covered d (node.listedPending d) log
  pends : node'.pendingDeviceRelations ≠ none → node'.state = .enumerateCompletion ∧ again = true

theorem balance_append (d : Device) (first second : List (WalkEvent Device)) :
    balance d (first ++ second) = balance d first + balance d second := by
  induction first with
  | nil => exact (Int.zero_add _).symm
  | cons event rest ih => rw [cons_append, balance, balance, ih, Int.add_assoc]

theorem leftOn_append (d : Device) (first second : List (WalkEvent Device)) :
    leftOn d (first ++ second) = leftOn d first + leftOn d second := by
  induction first with
  | nil => exact (Int.zero_add _).symm
  | cons event rest ih => cases event <;> simp only [cons_append, leftOn, ih, Int.add_assoc]

theorem listed_nonneg (d : Device) (devices : List Device) : 0 ≤ listed d devices := Int.natCast_nonneg _

theorem listed_cons (d e : Device) (rest : List Device) :
    listed d (e :: rest) = (if e = d then 1 else 0) + listed d rest := by
  rw [listed, listed, count_cons]
  by_cases same : e = d
  · rw [if_pos (beq_iff_eq.mpr same), if_pos same]
    omega
  · rw [if_neg (beq_iff_eq.not.mpr same), if_neg same]
    omega

theorem balance_references (d : Device) (devices : List Device) :
    balance d (devices.map .reference) = listed d devices := by
  induction devices with
  | nil => rfl
  | cons e rest ih =>
    rw [map_cons, balance, ih, change, listed_cons]

theorem balance_dereferences (d : Device) (devices : List Device) :
    balance d (devices.map .dereference) = - listed d devices := by
  induction devices with
  | nil => rfl
  | cons e rest ih =>
    rw [map_cons, balance, ih, change, listed_cons]
    split_ifs <;> omega

theorem leftOn_references (d : Device) (devices : List Device) : leftOn d (devices.map .reference) = 0 := by
  induction devices with
  | nil => rfl
  | cons e rest ih => exact ih

theorem leftOn_dereferences (d : Device) (devices : List Device) : leftOn d (devices.map .dereference) = 0 := by
  induction devices with
  | nil => rfl
  | cons e rest ih => exact ih

theorem leftOn_single {d top : Device} (left : leftOn d [.left top] ≠ 0) : top = d := by
  by_contra other
  exact left (by simp [leftOn, other])

theorem leftOn_nonneg (d : Device) (log : List (WalkEvent Device)) : 0 ≤ leftOn d log := by
  induction log with
  | nil => exact Int.le_refl 0
  | cons event rest ih =>
    cases event with
    | left e =>
      rw [leftOn]
      split_ifs <;> omega
    | _ => exact ih

namespace Covered
variable {d : Device} {height : Int} {first second : List (WalkEvent Device)}

theorem append (one : Covered d height first) (two : Covered d (height + balance d first) second) :
    Covered d height (first ++ second) := by
  induction first generalizing height with
  | nil => exact (congrArg (Covered d · second) (Int.add_zero height)).mp two
  | cons event rest ih =>
    refine ⟨one.1, ih one.2 ?_⟩
    rw [Int.add_assoc]
    exact two

theorem mono (covered : Covered d height first) (higher : height ≤ height') : Covered d height' first := by
  induction first generalizing height height' with
  | nil => exact Int.le_trans covered higher
  | cons event rest ih => exact ⟨Int.le_trans covered.1 higher, ih covered.2 (by omega)⟩

theorem start (covered : Covered d height first) : 0 ≤ height := by
  cases first with
  | nil => exact covered
  | cons event rest => exact covered.1

theorem of_append (covered : Covered d height (first ++ second)) : 0 ≤ height + balance d first := by
  induction first generalizing height with
  | nil => exact (Int.add_zero height).symm ▸ covered.start
  | cons event rest ih =>
    rw [balance, ← Int.add_assoc]
    exact ih covered.2

theorem total (covered : Covered d height first) : 0 ≤ height + balance d first :=
  of_append ((append_nil first).symm ▸ covered : Covered d height (first ++ []))

theorem of_taken (high : 0 ≤ height) (taken : ∀ event ∈ first, 0 ≤ event.change d) :
    Covered d height first := by
  induction first generalizing height with
  | nil => exact high
  | cons event rest ih =>
    have here := taken event mem_cons_self
    exact ⟨high, ih (by omega) fun event member => taken event (mem_cons_of_mem _ member)⟩

theorem dereferences (devices : List Device) : Covered d (listed d devices) (devices.map .dereference) := by
  induction devices with
  | nil => exact Int.le_refl 0
  | cons e rest ih =>
    refine ⟨listed_nonneg d _, ?_⟩
    have same : listed d (e :: rest) + (dereference e).change d = listed d rest := by
      rw [listed_cons, change]
      split_ifs <;> omega
    rwa [same]

end Covered

theorem change_reference_nonneg (d e : Device) : 0 ≤ (reference e).change d := by
  rw [change]
  split_ifs <;> decide

theorem change_left_nonneg (d e : Device) : 0 ≤ (left e).change d := by
  rw [change]
  split_ifs <;> decide

theorem DeviceNode.listedPending_none {node : DeviceNode Device} (none : node.pendingDeviceRelations = none)
    (d : Device) : node.listedPending d = 0 := by
  rw [listedPending, none]
  rfl

theorem DeviceNode.listedPending_nonneg (node : DeviceNode Device) (d : Device) : 0 ≤ node.listedPending d :=
  listed_nonneg d _

theorem Accounts.of_none {node node' : DeviceNode Device} {log : List (WalkEvent Device)}
    (before : node.pendingDeviceRelations = none) (after : node'.pendingDeviceRelations = none)
    (closes : ∀ d, balance d log = leftOn d log) (leaves : ∀ d, leftOn d log ≠ 0 → asked d)
    (covers : ∀ d, Covered d 0 log) : Accounts asked node node' again log where
  closes d := by
    rw [listedPending_none before, listedPending_none after, closes]
  leaves := leaves
  covers d := by
    rw [listedPending_none before]
    exact covers d
  pends listed := absurd after listed

theorem Accounts.silent {node node' : DeviceNode Device} (before : node.pendingDeviceRelations = none)
    (after : node'.pendingDeviceRelations = none) : Accounts asked node node' again [] :=
  .of_none before after (fun _ => rfl) (fun _ left => absurd rfl left) fun _ => Int.le_refl 0

theorem Accounts.dropped {node node' : DeviceNode Device} (after : node'.pendingDeviceRelations = none) :
    Accounts asked node node' again ((node.pendingDeviceRelations.getD []).map .dereference) where
  closes d := by
    rw [balance_dereferences, leftOn_dereferences, listedPending_none after, listedPending]
    omega
  leaves d left := absurd (leftOn_dereferences d _) left
  covers d := Covered.dereferences _
  pends listed := absurd after listed

theorem Accounts.ended {node node' node'' : DeviceNode Device} {log : List (WalkEvent Device)}
    (accounts : Accounts asked node node' false log)
    (same : node''.pendingDeviceRelations = node'.pendingDeviceRelations) : Accounts asked node node'' again log := by
  have none : node'.pendingDeviceRelations = none := by
    by_contra listed
    cases (accounts.pends listed).2
  exact {
    closes := fun d => by
      rw [listedPending, listedPending, same]
      exact accounts.closes d
    leaves := accounts.leaves
    covers := accounts.covers
    pends := fun listed => absurd (same.trans none) listed }

end Accounts

section Rounds
variable {Device : Type} [DecidableEq Device] {σ : DeviceTree Device}

/-- What a round leaves of the current node. -/
structure NodeFrame (answers : WalkAnswers Device) (node node' : DeviceNode Device) : Prop where
  device : node'.physicalDeviceObject = node.physicalDeviceObject
  capabilityFlags : node'.capabilityFlags = node.capabilityFlags
  pending : node'.pendingDeviceRelations = node.pendingDeviceRelations ∨
    node'.pendingDeviceRelations = none ∨ node'.pendingDeviceRelations = answers.relationList
  removed : node'.state = .removed → node.state = .removed

namespace NodeFrame
variable {answers : WalkAnswers Device} {node node' : DeviceNode Device}

omit [DecidableEq Device] in
theorem refl (node : DeviceNode Device) : NodeFrame answers node node := ⟨rfl, rfl, .inl rfl, id⟩

omit [DecidableEq Device] in
theorem setState (frame : NodeFrame answers node node') (state : DevnodeState) (other : state ≠ .removed) :
    NodeFrame answers node (node'.setState state) where
  device := (setState_physicalDeviceObject _ _).trans frame.device
  capabilityFlags := (setState_capabilityFlags _ _).trans frame.capabilityFlags
  pending := by
    rw [setState_pendingDeviceRelations]
    exact frame.pending
  removed gone := absurd ((setState_state _ _).symm.trans gone) other

omit [DecidableEq Device] in
theorem withProblem (frame : NodeFrame answers node node') (problem : BitVec 32) :
    NodeFrame answers node (node'.withProblem problem) :=
  ⟨frame.device, frame.capabilityFlags, frame.pending, frame.removed⟩

end NodeFrame

/-- Only a node that is to be enumerated has a list of devices. -/
def DeviceNode.Settled (node : DeviceNode Device) : Prop :=
  node.pendingDeviceRelations ≠ none → node.state = .enumerateCompletion

omit [DecidableEq Device] in
theorem DeviceNode.Settled.none {node : DeviceNode Device} (settled : node.Settled)
    (other : node.state ≠ .enumerateCompletion) : node.pendingDeviceRelations = none := by
  by_contra listed
  exact other (settled listed)

/-- A turn of the switch sends a request to the stack with this device on top. -/
def DeviceNode.Asks (answers : WalkAnswers Device) (node : DeviceNode Device) (d : Device) : Prop :=
  (node.state = .resourcesAssigned ∨ node.state = .started ∧ node.flags.reenumerate = true) ∧
    answers.top node.physicalDeviceObject = d

/-- A round that changes the current node alone. -/
structure LocalRound (answers : WalkAnswers Device) (n : Nat) (node node' : DeviceNode Device) (again : Bool)
    (log : List (WalkEvent Device)) : Prop where
  about : ∀ event ∈ log, ∀ m, event.about = some m → m = n
  quiet : visits log = []
  further : again = true → node.state.stage < node'.state.stage
  frame : NodeFrame answers node node'
  accounts : node.Settled → Accounts (node.Asks answers) node node' again log
  fits : (node.state = .resourcesAssigned → answers.start.status.isSuccess = true) →
    ∀ {added started failed : Prop}, NodeFits added started failed node →
      NodeFits (added ∨ AddSucceeded log n) (started ∨ StartSucceeded log n) (failed ∨ RequestFailed log n) node'

namespace LocalRound
variable {answers : WalkAnswers Device} {n : Nat} {node node' : DeviceNode Device} {log : List (WalkEvent Device)}

theorem silent (references : OnlyReferences log) (frame : NodeFrame answers node node')
    (accounts : node.Settled → Accounts (node.Asks answers) node node' again log)
    (further : again = true → node.state.stage < node'.state.stage)
    (fits : ∀ {added started failed : Prop}, NodeFits added started failed node →
      NodeFits added started failed node') : LocalRound answers n node node' again log where
  about event member m same := by
    rw [(references event member).1] at same
    cases same
  quiet := references.visits
  further := further
  frame := frame
  accounts := accounts
  fits _ := fun before => (fits before).mono .inl .inl fun either => either.resolve_right references.not_requestFailed

theorem stay (node : DeviceNode Device) (other : node.state ≠ .enumerateCompletion) :
    LocalRound answers n node node false [] :=
  silent (forall_mem_nil _) (.refl node) (fun settled => .silent (settled.none other) (settled.none other))
    (fun again => absurd again Bool.false_ne_true) id

theorem advance (next : DevnodeState) (further : node.state.stage < next.stage) (added : node.state.isAdded = true)
    (other : next ≠ .removed) (notEnumerating : node.state ≠ .enumerateCompletion)
    (started : (node.setState next).isStarted = true → node.isStarted = true) :
    LocalRound answers n node (node.setState next) true [] := by
  refine silent (forall_mem_nil _) ((NodeFrame.refl node).setState next other) (fun settled => ?_)
    (fun _ => ?_) fun fits => ?_
  · have none := settled.none notEnumerating
    exact .silent none ((setState_pendingDeviceRelations _ _).trans none)
  · rwa [setState_state]
  · refine fits.through (fun awaiting => ?_) (fun _ => added) started (setState_capabilityFlags _ _)
    rw [awaiting] at added
    cases added

theorem ended (about : ∀ event ∈ log, ∀ m, event.about = some m → m = n) (quiet : visits log = [])
    (frame : NodeFrame answers node node') (accounts : node.Settled → Accounts (node.Asks answers) node node' false log)
    (state : node'.state = .awaitingQueuedRemoval)
    (problem : node'.flags.problem = true) : LocalRound answers n node node' false log where
  about := about
  quiet := quiet
  further again := absurd again Bool.false_ne_true
  frame := frame
  accounts := accounts
  fits _ := fun fits => .awaiting state problem
    (by rw [rawDeviceOk, frame.capabilityFlags]; exact fits.notRaw)

theorem added (state : node.state = .initialized) (succeeds : status.isSuccess = true)
    (state' : node'.state = .driversAdded) (frame : NodeFrame answers node node')
    (same : node'.pendingDeviceRelations = node.pendingDeviceRelations) :
    LocalRound answers n node node' true [.addDevice n status, .reference top, .dereference top] where
  about event member m same := by
    simp only [mem_cons, not_mem_nil, or_false] at member
    rcases member with rfl | rfl | rfl
    · exact (Option.some.inj same).symm
    · cases same
    · cases same
  quiet := rfl
  further _ := by
    rw [state, state']
    decide
  frame := frame
  accounts settled := by
    have none : node.pendingDeviceRelations = none := settled.none (by rw [state]; exact noConfusion)
    refine .of_none none (same.trans none) (fun d => ?_) (fun d => ?_) fun d => ?_
    · by_cases here : top = d <;> simp [balance, leftOn, change, here]
    · exact fun left => absurd rfl left
    · by_cases here : top = d <;> simp [Covered, change, here]
  fits _ := fun fits => by
    refine fits.moved ?_ (fun _ => .inr ⟨_, mem_cons_self, succeeds⟩) (fun past => ?_) ?_ frame.capabilityFlags
    · rw [state]
      exact noConfusion
    · rw [isStarted, state'] at past
      cases past
    · rintro ⟨status', member, fails⟩
      simp only [mem_cons, not_mem_nil, reduceCtorEq, or_false] at member
      obtain ⟨-, rfl⟩ := addDevice.inj member
      rw [succeeds] at fails
      cases fails

end LocalRound

/-- A round that changes the current node alone, as a whole. -/
def RoundsLocally (answers : WalkAnswers Device) (σ : DeviceTree Device) (n : Nat) : Prop :=
  ∃ change again log, (∀ node : DeviceNode Device, (change node).place = node.place) ∧
    processNode answers σ n = some (σ.modify n change, again, log) ∧
    LocalRound answers n (σ.nodes n) (change (σ.nodes n)) again log

section
variable (answers : WalkAnswers Device)

theorem initialized_failed (σ : DeviceTree Device) (n : Nat) (status : VeaStatus)
    (log : List (WalkEvent Device)) {change : DeviceNode Device → DeviceNode Device}
    (keeps : ∀ node, (change node).place = node.place) (fails : status.isSuccess = false)
    (round : LocalRound answers n (σ.nodes n) (change (σ.nodes n)) false log) :
    ∃ change' again log', (∀ node : DeviceNode Device, (change' node).place = node.place) ∧
      (if status.isSuccess = true then
        some ((σ.modify n change).obioSetDevNodeState n .driversAdded, true, log)
      else if status ≠ statusNotFound then
        some (((σ.modify n change).obioSetDevNodeProblem n 1).obioSetDevNodeState n .awaitingQueuedRemoval,
          false, log)
      else some (σ.modify n change, false, log)) = some (σ.modify n change', again, log') ∧
      LocalRound answers n (σ.nodes n) (change' (σ.nodes n)) again log' := by
  rw [fails, if_neg Bool.false_ne_true]
  by_cases notFound : status = statusNotFound
  · exact ⟨change, false, log, keeps, if_neg fun other => other notFound, round⟩
  · refine ⟨fun node => ((change node).withProblem 1).setState .awaitingQueuedRemoval, false, log,
      fun node => (setState_place _ _).trans (keeps node), ?_, .ended round.about round.quiet
        ((round.frame.withProblem 1).setState _ noConfusion)
        (fun settled => (round.accounts settled).ended (setState_pendingDeviceRelations _ _))
        (setState_state _ _)
        (by rw [setState_flags]; rfl)⟩
    rw [if_pos notFound, obioSetDevNodeProblem_state, modify_modify]

theorem processNode_initialized (notRaw : (σ.nodes n).rawDeviceOk = false)
    (state : (σ.nodes n).state = .initialized) : RoundsLocally answers σ n := by
  obtain ⟨change, keeps, changed, outcome⟩ := obioCallDriverAddDevice_outcome answers.top answers.addDevice σ n
    answers.systemInit notRaw
  have same : NodeFrame answers (σ.nodes n) (σ.nodes n) := .refl (σ.nodes n)
  have ends : NodeFrame answers (σ.nodes n)
      (((σ.nodes n).withProblem problemFailedAdd).setState .awaitingQueuedRemoval) :=
    (same.withProblem problemFailedAdd).setState _ noConfusion
  have other : (σ.nodes n).state ≠ .enumerateCompletion := by
    rw [state]
    exact noConfusion
  rw [RoundsLocally, processNode, state]
  generalize obioCallDriverAddDevice answers.top answers.addDevice σ n answers.systemInit = result at changed outcome
  obtain ⟨τ, status, log⟩ := result
  subst changed
  dsimp only at outcome ⊢
  have failing := initialized_failed answers σ n status log keeps
  generalize after : change (σ.nodes n) = node' at outcome failing
  cases outcome with
  | added top succeeds =>
    rw [if_pos succeeds]
    refine ⟨fun node => (change node).setState .driversAdded, true,
      [.addDevice n status, .reference top, .dereference top],
      fun node => (setState_place _ _).trans (keeps node), ?_, ?_⟩
    · rw [obioSetDevNodeState_eq, modify_modify]
    · dsimp only
      rw [after]
      exact .added state succeeds (setState_state _ _)
        ((same.setState _ noConfusion).setState _ noConfusion)
        ((setState_pendingDeviceRelations _ _).trans (setState_pendingDeviceRelations _ _))
  | failed fails =>
    have about : ∀ event ∈ [addDevice n status], ∀ m, (event : WalkEvent Device).about = some m →
        m = n := fun event member m same => by
      rw [mem_singleton.mp member] at same
      exact (Option.some.inj same).symm
    have accounts : (σ.nodes n).Settled → Accounts ((σ.nodes n).Asks answers) (σ.nodes n)
        (((σ.nodes n).withProblem problemFailedAdd).setState .awaitingQueuedRemoval) false
        [.addDevice n status] := fun settled => by
      have none := settled.none other
      exact .of_none none ((setState_pendingDeviceRelations _ _).trans none) (fun _ => rfl)
        (fun _ left => absurd rfl left) fun _ => ⟨Int.le_refl 0, Int.le_refl 0⟩
    exact failing fails (.ended about rfl ends accounts (setState_state _ _)
      (by rw [setState_flags]; rfl))
  | withoutRoutine fails =>
    exact failing fails (.ended (fun event member => absurd member not_mem_nil) rfl ends
      (fun settled => .silent (settled.none other)
        ((setState_pendingDeviceRelations _ _).trans (settled.none other)))
      (setState_state _ _) (by rw [setState_flags]; rfl))
  | unserved fails => exact failing fails (.stay _ other)
  | mismatch fails =>
    refine failing fails (.silent (forall_mem_nil _) (same.withProblem problemRegistry)
      (fun settled => .silent (settled.none other) (settled.none other))
      (fun again => absurd again Bool.false_ne_true) fun fits => fits.through ?_ id id rfl)
    rw [state]
    exact noConfusion

theorem processNode_driversAdded (state : (σ.nodes n).state = .driversAdded) :
    RoundsLocally answers σ n := by
  have succeeds : statusSuccess.isSuccess = true := by decide
  refine ⟨fun node => node.setState .resourcesAssigned, true, [], fun node => setState_place _ _, ?_, ?_⟩
  · rw [processNode, state]
    simp only [obioAssignDeviceResources, succeeds, obioSetDevNodeState_eq]
  · refine .advance .resourcesAssigned (by rw [state]; decide) (by rw [state]; rfl) noConfusion ?_
      fun past => ?_
    · rw [state]
      exact noConfusion
    · rw [isStarted, setState_state] at past
      cases past

theorem processNode_resourcesAssigned (state : (σ.nodes n).state = .resourcesAssigned)
    : RoundsLocally answers σ n := by
  refine ⟨fun node => { node with lastStateCompletionStatus := 0 }.setState .startCompletion, true,
    [.start n answers.start.status, .left (answers.top (σ.nodes n).physicalDeviceObject)],
    fun node => setState_place { node with lastStateCompletionStatus := 0 } _, ?_, ?_⟩
  · rw [processNode, state]
    simp only [obioStartDeviceNode, obioSetDevNodeState_eq, modify_modify]
  · have cleared : NodeFrame answers (σ.nodes n) { σ.nodes n with lastStateCompletionStatus := 0 } :=
      ⟨rfl, rfl, .inl rfl, id⟩
    exact {
      about := fun event member m same => by
        rcases mem_pair.mp member with rfl | rfl
        · exact (Option.some.inj same).symm
        · cases same
      quiet := rfl
      further := fun _ => by
        rw [state, setState_state]
        decide
      frame := cleared.setState _ noConfusion
      accounts := fun settled => by
        have none := settled.none (by rw [state]; exact noConfusion)
        exact .of_none none ((setState_pendingDeviceRelations _ _).trans none)
          (fun _ => Int.zero_add _) (fun d left => ⟨.inl state, leftOn_single left⟩) fun d => .of_taken (Int.le_refl 0) fun event member => by
            rcases mem_pair.mp member with rfl | rfl
            · exact Int.le_refl 0
            · exact change_left_nonneg d _
      fits := fun started {_ _ _} fits => by
        have succeeds := started state
        refine fits.moved ?_ (fun _ => .inl (fits.added ?_)) (fun _ => .inr ⟨_, mem_cons_self, succeeds⟩) ?_
          (setState_capabilityFlags _ _)
        · rw [state]
          exact noConfusion
        · rw [state]
          rfl
        · rintro ⟨status, member, fails⟩
          simp only [mem_cons, not_mem_nil, reduceCtorEq, or_false, false_or] at member
          obtain ⟨-, rfl⟩ := start.inj member
          rw [succeeds] at fails
          cases fails }

theorem processNode_startCompletion (state : (σ.nodes n).state = .startCompletion)
    : RoundsLocally answers σ n := by
  by_cases succeeds : (σ.nodes n).lastStateCompletionStatus.isSuccess = true
  · refine ⟨fun node => node.setState .startPostWork, true, [], fun node => setState_place _ _, ?_, ?_⟩
    · rw [processNode, state]
      simp only [succeeds, Bool.not_true, Bool.false_eq_true, if_false, obioSetDevNodeState_eq]
    · refine .advance .startPostWork (by rw [state]; decide) (by rw [state]; rfl) noConfusion ?_
        fun _ => ?_
      · rw [state]
        exact noConfusion
      · rw [isStarted, state]
        exact succeeds
  · refine ⟨fun node => (node.withProblem 1).setState .awaitingQueuedRemoval, true, [],
      fun node => setState_place _ _, ?_, ?_⟩
    · rw [processNode, state]
      simp only [succeeds, Bool.not_false, if_true, obioSetDevNodeProblem_state]
    · refine .silent (forall_mem_nil _)
        (((NodeFrame.refl _).withProblem 1).setState _ noConfusion) (fun settled => ?_)
        (fun _ => ?_) fun fits => ?_
      · have none := settled.none (by rw [state]; exact noConfusion)
        exact .silent none ((setState_pendingDeviceRelations _ _).trans none)
      · rw [state, setState_state]
        decide
      · refine .awaiting (setState_state _ _) ?_ ?_
        · rw [setState_flags]
          rfl
        · rw [rawDeviceOk, setState_capabilityFlags]
          exact fits.notRaw

theorem processNode_startPostWork (state : (σ.nodes n).state = .startPostWork)
    : RoundsLocally answers σ n := by
  refine ⟨fun node => node.setState .started, true, [], fun node => setState_place _ _, ?_, ?_⟩
  · rw [processNode, state]
    simp only [obioStartDeviceFinal, obioSetDevNodeState_eq]
  · refine .advance .started (by rw [state]; decide) (by rw [state]; rfl) noConfusion ?_ fun _ => ?_
    · rw [state]
      exact noConfusion
    · rw [isStarted, state]

end

/-- A started node with the answer of its bus. -/
def DeviceNode.asked (answers : WalkAnswers Device) (node : DeviceNode Device) : DeviceNode Device :=
  { node with
    flags := { node.flags with reenumerate := false }
    pendingDeviceRelations := if answers.relations.oip then answers.relationList else none
    lastStateCompletionStatus := answers.relations.status }

theorem Accounts.asked {node : DeviceNode Device} (before : node.pendingDeviceRelations = none)
    (reenumerate : node.state = .started ∧ node.flags.reenumerate = true) (answers : WalkAnswers Device) :
    Accounts (node.Asks answers) node ((node.asked answers).setState .enumerateCompletion) true
      ([.left (answers.top node.physicalDeviceObject), .left (answers.top node.physicalDeviceObject)] ++
        ((if answers.relations.oip then answers.relationList else none).getD []).map .reference) where
  closes d := by
    rw [balance_append, leftOn_append, balance_references, leftOn_references, DeviceNode.listedPending_none before,
      DeviceNode.listedPending, DeviceNode.setState_pendingDeviceRelations]
    simp only [balance, leftOn, WalkEvent.change, DeviceNode.asked]
    omega
  leaves d left := by
    rw [leftOn_append, leftOn_references, Int.add_zero] at left
    refine ⟨.inr reenumerate, ?_⟩
    by_contra other
    exact left (by simp [leftOn, other])
  covers d := by
    rw [DeviceNode.listedPending_none before]
    refine .of_taken (Int.le_refl 0) fun event member => ?_
    simp only [List.mem_append, List.mem_cons, List.not_mem_nil, or_false, or_self, List.mem_map] at member
    rcases member with rfl | ⟨device, -, rfl⟩
    · exact change_left_nonneg d _
    · exact change_reference_nonneg d _
  pends _ := ⟨DeviceNode.setState_state _ _, rfl⟩

theorem processNode_started (answers : WalkAnswers Device)
    (state : (σ.nodes n).state = .started) : RoundsLocally answers σ n := by
  have unchanged : σ.modify n id = σ := modify_unchanged rfl
  by_cases asks : (σ.nodes n).flags.reenumerate = true
  · refine ⟨fun node => (node.asked answers).setState .enumerateCompletion, true,
      [.left (answers.top (σ.nodes n).physicalDeviceObject),
        .left (answers.top (σ.nodes n).physicalDeviceObject)] ++
        ((if answers.relations.oip then answers.relationList else none).getD []).map .reference,
      fun node => setState_place (node.asked answers) _, ?_, ?_⟩
    · rw [processNode, state]
      simp only [asks, if_true, obioQueryNodeRelations, obioSetDevNodeState_eq,
        modify_modify, modify_self]
      rfl
    · have asked : NodeFrame answers (σ.nodes n) ((σ.nodes n).asked answers) := by
        refine ⟨rfl, rfl, .inr ?_, id⟩
        rw [asked]
        cases answers.relations.oip with
        | false => exact .inl rfl
        | true => exact .inr rfl
      have askedAccounts : (σ.nodes n).Settled → Accounts ((σ.nodes n).Asks answers) (σ.nodes n) (((σ.nodes n).asked answers).setState
          .enumerateCompletion) true _ := fun settled =>
        .asked (settled.none (by rw [state]; exact noConfusion)) ⟨state, asks⟩ answers
      refine .silent (fun event member => ?_) (asked.setState _ noConfusion) askedAccounts (fun _ => ?_)
        fun fits => ?_
      · simp only [mem_append, mem_cons, not_mem_nil, or_false, or_self, mem_map] at member
        rcases member with rfl | ⟨device, -, rfl⟩
        · exact ⟨rfl, rfl⟩
        · exact ⟨rfl, rfl⟩
      · rw [state, setState_state]
        decide
      · refine fits.through ?_ (fun _ => ?_) (fun _ => ?_) (setState_capabilityFlags _ _)
        · rw [state]
          exact noConfusion
        · rw [state]
          rfl
        · rw [isStarted, state]
  · refine ⟨id, false, [], fun _ => rfl, by rw [unchanged, processNode, state]; simp only [asks]; rfl, .stay _ ?_⟩
    rw [state]
    exact noConfusion

theorem processNode_local (answers : WalkAnswers Device) (σ : DeviceTree Device) (n : Nat)
    (notRaw : (σ.nodes n).rawDeviceOk = false) (other : (σ.nodes n).state ≠ .enumerateCompletion) :
    RoundsLocally answers σ n := by
  have unchanged : σ.modify n id = σ := modify_unchanged rfl
  cases state : (σ.nodes n).state with
  | initialized => exact processNode_initialized answers notRaw state
  | driversAdded => exact processNode_driversAdded answers state
  | resourcesAssigned => exact processNode_resourcesAssigned answers state
  | startCompletion => exact processNode_startCompletion answers state
  | startPostWork => exact processNode_startPostWork answers state
  | started => exact processNode_started answers state
  | enumerateCompletion => exact absurd state other
  | _ => exact ⟨id, false, [], fun _ => rfl, by rw [unchanged, processNode, state], .stay _ other⟩

end Rounds
end VeaOS.Pnp
