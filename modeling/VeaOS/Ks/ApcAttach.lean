import VeaOS.Foundation.RingList
import VeaOS.Ks.ApcQueue

/-! The lists of calls of a thread as they lie in memory. A thread has two APC
states, each with the heads of two lists; attaching to a process copies one
over the other, links of the heads included. -/
namespace VeaOS.Ks.ApcLinks
open Foundation RingLinks

/-- `Thread->ApcState` and `Thread->SavedApcState`. -/
inductive KApcSlot where
  | apcState
  | savedApcState
  deriving DecidableEq, Repr

/-- The list entries: the heads in the two states, and the one of each call. -/
inductive ApcNode (Apc : Type) where
  | apcListHead (slot : KApcSlot) (mode : KProcessorMode)
  | apcListEntry (apc : Apc)
  deriving DecidableEq

structure KApcState (Process : Type) where
  process : Option Process
  kernelApcInProgress : Bool
  kernelApcPending : Bool
  userApcPending : Bool

/-- The last component only records the links before the thread attached. -/
structure ApcThread (Apc Routine Arg Process : Type) where
  apc : Apc → KApc Routine Arg
  links : RingLinks (ApcNode Apc)
  state : KApcSlot → KApcState Process
  apcStatePointer : ApcEnvironment → KApcSlot
  apcStateIndex : ApcEnvironment
  apcQueueable : Bool
  kernelApcDisable : BitVec 16
  specialApcDisable : BitVec 16
  frames : List (ApcFrame Apc Routine Arg)
  attachedFrom : Option (RingLinks (ApcNode Apc))

variable {Apc Routine Arg Process : Type} [DecidableEq Apc] [DecidableEq Process]

namespace ApcThread
variable (σ : ApcThread Apc Routine Arg Process)

omit [DecidableEq Apc] [DecidableEq Process] in
def isNormal (apc : Apc) : Bool := (σ.apc apc).normalRoutine.isSome

omit [DecidableEq Apc] [DecidableEq Process] in
def setState (slot : KApcSlot) (state : KApcState Process) : ApcThread Apc Routine Arg Process :=
  { σ with state := Function.update σ.state slot state }

omit [DecidableEq Apc] [DecidableEq Process] in
def slot : KApcSlot := σ.apcStatePointer σ.apcStateIndex

omit [DecidableEq Process] in
def setInserted (apc : Apc) (inserted : Bool) : ApcThread Apc Routine Arg Process :=
  { σ with apc := Function.update σ.apc apc { σ.apc apc with inserted := inserted } }

end ApcThread

/-- `KiInitializeThread`, with calls that are initialized and in no list. -/
def initializedThread (apc : Apc → KApc Routine Arg) (process : Option Process) :
    ApcThread Apc Routine Arg Process where
  apc x := { apc x with inserted := false }
  links := ⟨id, id⟩
  state slot := ⟨if slot = .apcState then process else none, false, false, false⟩
  apcStatePointer
    | .original => .apcState
    | .attached => .savedApcState
  apcStateIndex := .original
  apcQueueable := true
  kernelApcDisable := 0
  specialApcDisable := 0
  frames := []
  attachedFrom := none

/-- The scan from the tail for a special call, which ends at the head. -/
def scanSpecial (σ : ApcThread Apc Routine Arg Process) (head : ApcNode Apc) :
    Nat → ApcNode Apc → Option (ApcNode Apc)
  | 0, _ => none
  | fuel + 1, nextEntry =>
    if nextEntry = head then some nextEntry
    else match nextEntry with
      | .apcListHead _ _ => none
      | .apcListEntry apc =>
        if σ.isNormal apc then scanSpecial σ head fuel (σ.links.blink nextEntry) else some nextEntry

def placeApc (fuel : Nat) (σ : ApcThread Apc Routine Arg Process) (slot : KApcSlot) (mode : KProcessorMode)
    (apc : Apc) : Option (ApcThread Apc Routine Arg Process) :=
  let head : ApcNode Apc := .apcListHead slot mode
  if σ.isNormal apc then
    if mode ≠ .kernelMode then
      let σ := σ.setState .apcState { σ.state .apcState with userApcPending := true }
      some { σ with links := σ.links.insertHeadList head (.apcListEntry apc) }
    else some { σ with links := σ.links.insertTailList head (.apcListEntry apc) }
  else (scanSpecial σ head fuel (σ.links.blink head)).map fun nextEntry =>
    { σ with links := σ.links.insertHeadList nextEntry (.apcListEntry apc) }

/-- The requests to the thread that end the source's function are left out. -/
def kiInsertQueueApc (fuel : Nat) (σ : ApcThread Apc Routine Arg Process) (apc : Apc) :
    Option (ApcThread Apc Routine Arg Process) :=
  let environment := (σ.apc apc).apcStateIndex.getD σ.apcStateIndex
  let mode := (σ.apc apc).apcMode
  let record := { σ.apc apc with apcStateIndex := some environment }
  (placeApc fuel { σ with apc := Function.update σ.apc apc record } (σ.apcStatePointer environment) mode
    apc).map fun σ =>
      if σ.apcStateIndex = environment ∧ mode = .kernelMode then
        σ.setState .apcState { σ.state .apcState with kernelApcPending := true }
      else σ

def ksInsertQueueApc (fuel : Nat) (σ : ApcThread Apc Routine Arg Process) (apc : Apc)
    (systemArgument1 systemArgument2 : Arg) : Option (ApcThread Apc Routine Arg Process × Bool) :=
  if !σ.apcQueueable || (σ.apc apc).inserted then some (σ, false)
  else
    let record := { σ.apc apc with
      systemArgument1 := systemArgument1
      systemArgument2 := systemArgument2
      inserted := true }
    (kiInsertQueueApc fuel { σ with apc := Function.update σ.apc apc record } apc).map (·, true)

def takeUserApc (σ : ApcThread Apc Routine Arg Process) (apc : Apc) : ApcThread Apc Routine Arg Process :=
  let σ := σ.setState .apcState { σ.state .apcState with userApcPending := false }
  let σ := { σ with links := σ.links.removeEntryList (.apcListEntry apc) }.setInserted apc false
  { σ with frames := .userKernelRoutine apc :: σ.frames }

/-- The end of `KsDeliverApc`: at most one user call, and the return. -/
def deliverUserApc (σ : ApcThread Apc Routine Arg Process) (deliveryMode : KProcessorMode) :
    Option (ApcThread Apc Routine Arg Process × Option Apc) :=
  let head : ApcNode Apc := .apcListHead σ.slot .userMode
  if deliveryMode = .userMode ∧ ¬ σ.links.isListEmpty head ∧ (σ.state .apcState).userApcPending then
    match σ.links.flink head with
    | .apcListHead _ _ => none
    | .apcListEntry apc => some (takeUserApc σ apc, some apc)
  else some (σ, none)

def takeKernelApc (σ : ApcThread Apc Routine Arg Process) (deliveryMode : KProcessorMode) (apc : Apc) :
    ApcThread Apc Routine Arg Process :=
  let record := σ.apc apc
  let σ := { σ with links := σ.links.removeEntryList (.apcListEntry apc) }.setInserted apc false
  { σ with
    frames := .kernelRoutine deliveryMode apc
      ⟨record.normalRoutine, record.normalContext, record.systemArgument1, record.systemArgument2⟩
      σ.kernelApcDisable :: σ.frames }

/-- One pass of the loop over the kernel calls, up to the call of a kernel
routine. Where the head's link leads to another head there is no call to take. -/
def deliverPass (σ : ApcThread Apc Routine Arg Process) (deliveryMode : KProcessorMode) :
    Option (ApcThread Apc Routine Arg Process × Option Apc) :=
  let head : ApcNode Apc := .apcListHead σ.slot .kernelMode
  if σ.links.isListEmpty head ∨ σ.specialApcDisable ≠ 0 then deliverUserApc σ deliveryMode
  else match σ.links.flink head with
    | .apcListHead _ _ => none
    | .apcListEntry apc =>
      if σ.isNormal apc && (σ.kernelApcDisable ≠ 0 || (σ.state .apcState).kernelApcInProgress) then
        deliverUserApc σ deliveryMode
      else some (takeKernelApc σ deliveryMode apc, some apc)

def ksDeliverApc (σ : ApcThread Apc Routine Arg Process) (deliveryMode : KProcessorMode) :
    Option (ApcThread Apc Routine Arg Process × Option Apc) :=
  deliverPass (σ.setState .apcState { σ.state .apcState with kernelApcPending := false }) deliveryMode

def kernelRoutineReturns (σ : ApcThread Apc Routine Arg Process) (captured : Captured Routine Arg) :
    Option (ApcThread Apc Routine Arg Process × Option Apc) :=
  match σ.frames with
  | .kernelRoutine deliveryMode apc _ _ :: frames =>
    if captured.normalRoutine.isSome then
      some ({ σ.setState .apcState { σ.state .apcState with kernelApcInProgress := true } with
        frames := .normalRoutine deliveryMode apc :: frames }, none)
    else deliverPass { σ with frames := frames } deliveryMode
  | .userKernelRoutine _ :: frames => some ({ σ with frames := frames }, none)
  | _ => none

def normalRoutineReturns (σ : ApcThread Apc Routine Arg Process) :
    Option (ApcThread Apc Routine Arg Process × Option Apc) :=
  match σ.frames with
  | .normalRoutine deliveryMode _ :: frames =>
    deliverPass { σ.setState .apcState { σ.state .apcState with kernelApcInProgress := false } with
      frames := frames } deliveryMode
  | _ => none

/-- The links of the heads in one state, as they are copied with it. -/
def copyHeads (L : RingLinks (ApcNode Apc)) (source target : KApcSlot) : RingLinks (ApcNode Apc) where
  flink
    | .apcListHead slot mode => L.flink (.apcListHead (if slot = target then source else slot) mode)
    | .apcListEntry apc => L.flink (.apcListEntry apc)
  blink
    | .apcListHead slot mode => L.blink (.apcListHead (if slot = target then source else slot) mode)
    | .apcListEntry apc => L.blink (.apcListEntry apc)

/-- There is no result where the source stops in a bugcheck. -/
def ptAttachProcess (σ : ApcThread Apc Routine Arg Process) (process : Process) (dpcRoutineRunning : Bool) :
    Option (ApcThread Apc Routine Arg Process) :=
  if (σ.state .apcState).process = some process then some σ
  else if σ.apcStateIndex ≠ .original ∨ dpcRoutineRunning then none
  else
    let links := copyHeads σ.links .apcState .savedApcState
    some { σ with
      links := (links.initializeListHead (.apcListHead .apcState .kernelMode)).initializeListHead
        (.apcListHead .apcState .userMode)
      state
        | .savedApcState => σ.state .apcState
        | .apcState => ⟨some process, false, false, false⟩
      apcStatePointer
        | .original => .savedApcState
        | .attached => .apcState
      apcStateIndex := .attached
      attachedFrom := some σ.links }

def ptDetachProcess (σ : ApcThread Apc Routine Arg Process) : ApcThread Apc Routine Arg Process :=
  if σ.apcStateIndex = .original then σ
  else
    { σ with
      links := copyHeads σ.links .savedApcState .apcState
      state
        | .apcState => σ.state .savedApcState
        | .savedApcState => { σ.state .savedApcState with process := none }
      apcStatePointer
        | .original => .apcState
        | .attached => .savedApcState
      apcStateIndex := .original
      attachedFrom := none }

inductive AttachAction (Apc Routine Arg Process : Type) where
  | calls (action : ApcAction Apc Routine Arg)
  | attach (process : Process) (dpcRoutineRunning : Bool)
  | detach

/-- The steps of `ApcAction`, over the lists in memory. -/
def callStep (fuel : Nat) (σ : ApcThread Apc Routine Arg Process) :
    ApcAction Apc Routine Arg → Option (ApcThread Apc Routine Arg Process × Option Apc)
  | .insert apc a b => (ksInsertQueueApc fuel σ apc a b).map fun result => (result.1, none)
  | .deliver deliveryMode => ksDeliverApc σ deliveryMode
  | .kernelRoutineReturns captured => kernelRoutineReturns σ captured
  | .normalRoutineReturns => normalRoutineReturns σ
  | .enterCriticalRegion => some ({ σ with kernelApcDisable := σ.kernelApcDisable - 1 }, none)
  | .leaveCriticalRegion => some ({ σ with kernelApcDisable := σ.kernelApcDisable + 1 }, none)
  | .enterGuardedRegion => some ({ σ with specialApcDisable := σ.specialApcDisable - 1 }, none)
  | .leaveGuardedRegion => some ({ σ with specialApcDisable := σ.specialApcDisable + 1 }, none)

def attachStep (fuel : Nat) (σ : ApcThread Apc Routine Arg Process) :
    AttachAction Apc Routine Arg Process → Option (ApcThread Apc Routine Arg Process)
  | .calls action => (callStep fuel σ action).map Prod.fst
  | .attach process dpcRoutineRunning => ptAttachProcess σ process dpcRoutineRunning
  | .detach => some (ptDetachProcess σ)

section Statement

omit [DecidableEq Apc] [DecidableEq Process] in
/-- All the lists are circular, and the calls that are queued are each on one of them. -/
structure ListsSound (σ : ApcThread Apc Routine Arg Process) (lists : KApcSlot → KProcessorMode → List Apc) :
    Prop where
  circular (slot mode) : Ring σ.links (.apcListHead slot mode) ((lists slot mode).map .apcListEntry)
  queued (apc) : (σ.apc apc).inserted = true ↔ ∃ slot mode, apc ∈ lists slot mode
  once {apc slot mode slot' mode'} : apc ∈ lists slot mode → apc ∈ lists slot' mode' →
    slot = slot' ∧ mode = mode'

/-- The lists of the original environment that a detach leaves go on from those
that the attach found. -/
def DetachRestores (σ σ' : ApcThread Apc Routine Arg Process) : Prop :=
  ∀ L mode (list : List Apc), σ.attachedFrom = some L →
    Ring L (.apcListHead .apcState mode) (list.map ApcNode.apcListEntry) →
    ∃ list', Ring σ'.links (.apcListHead .apcState mode) (list'.map ApcNode.apcListEntry) ∧
      list.Sublist list'

/-- The step leaves sound lists, and a detach the original ones. -/
def StepSound (σ : ApcThread Apc Routine Arg Process) (action : AttachAction Apc Routine Arg Process)
    (σ' : ApcThread Apc Routine Arg Process) : Prop :=
  (∃ lists, ListsSound σ' lists) ∧ (action = .detach → DetachRestores σ σ')

/-- The thread attaches to a process that is not its own. -/
def Attaches (σ : ApcThread Apc Routine Arg Process) : AttachAction Apc Routine Arg Process → Prop
  | .attach process dpcRoutineRunning => (σ.state .apcState).process ≠ some process ∧
      σ.apcStateIndex = .original ∧ dpcRoutineRunning = false
  | _ => False

end Statement
end VeaOS.Ks.ApcLinks
