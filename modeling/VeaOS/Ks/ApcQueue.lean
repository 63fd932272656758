import Mathlib.Data.List.DropRight

/-! Asynchronous procedure calls of one thread. A delivery takes calls off the
list one by one and runs their routines with the list unlocked, so that these
may insert calls and deliver again. -/
namespace VeaOS.Ks

inductive KProcessorMode where
  | kernelMode
  | userMode
  deriving DecidableEq, Repr

/-- The environments a thread has lists for. -/
inductive ApcEnvironment where
  | original
  | attached
  deriving DecidableEq, Repr

/-- `ApcStateIndex` of a call; `none` is `InsertApcEnvironment`, which stands for
the environment of the thread at insertion. -/
structure KApc (Routine Arg : Type) where
  apcStateIndex : Option ApcEnvironment
  apcMode : KProcessorMode
  normalRoutine : Option Routine
  normalContext : Arg
  systemArgument1 : Arg
  systemArgument2 : Arg
  inserted : Bool

/-- What a delivery has read from a call; its kernel routine may change it. -/
structure Captured (Routine Arg : Type) where
  normalRoutine : Option Routine
  normalContext : Arg
  systemArgument1 : Arg
  systemArgument2 : Arg

/-- A routine that a delivery with the given mode has called. `disable` is
`KernelApcDisable` at the call of a kernel routine. -/
inductive ApcFrame (Apc Routine Arg : Type) where
  | kernelRoutine (deliveryMode : KProcessorMode) (apc : Apc) (captured : Captured Routine Arg)
      (disable : BitVec 16)
  | normalRoutine (deliveryMode : KProcessorMode) (apc : Apc)
  | userKernelRoutine (apc : Apc)

/-- The thread's lists and flags, and the routines it is in, innermost first. -/
structure ThreadApcs (Apc Routine Arg : Type) where
  apc : Apc → KApc Routine Arg
  apcListHead : ApcEnvironment → KProcessorMode → List Apc
  apcStateIndex : ApcEnvironment
  apcQueueable : Bool
  kernelApcDisable : BitVec 16
  specialApcDisable : BitVec 16
  kernelApcInProgress : Bool
  kernelApcPending : Bool
  userApcPending : Bool
  frames : List (ApcFrame Apc Routine Arg)

variable {Apc Routine Arg : Type} [DecidableEq Apc]

namespace ThreadApcs
variable (σ : ThreadApcs Apc Routine Arg)

omit [DecidableEq Apc] in
def isNormal (apc : Apc) : Bool := (σ.apc apc).normalRoutine.isSome

omit [DecidableEq Apc] in
def setList (environment : ApcEnvironment) (mode : KProcessorMode) (list : List Apc) :
    ThreadApcs Apc Routine Arg :=
  { σ with
    apcListHead := fun e m => if e = environment ∧ m = mode then list else σ.apcListHead e m }

def removeEntryList (environment : ApcEnvironment) (mode : KProcessorMode) (apc : Apc) :
    ThreadApcs Apc Routine Arg :=
  σ.setList environment mode ((σ.apcListHead environment mode).erase apc)

def setInserted (apc : Apc) (inserted : Bool) : ThreadApcs Apc Routine Arg :=
  { σ with apc := Function.update σ.apc apc { σ.apc apc with inserted := inserted } }

end ThreadApcs

/-- The target environment of `none` is `InsertApcEnvironment`. -/
def ksInitializeApc (targetEnvironment : Option ApcEnvironment) (normalRoutine : Option Routine)
    (mode : KProcessorMode) (context null : Arg) : KApc Routine Arg where
  apcStateIndex := targetEnvironment
  apcMode := if normalRoutine.isSome then mode else .kernelMode
  normalRoutine := normalRoutine
  normalContext := if normalRoutine.isSome then context else null
  systemArgument1 := null
  systemArgument2 := null
  inserted := false

/-- The list of the call's environment and mode takes it: a normal user call at
the head, a normal kernel call at the tail, and a special one behind the last
special one, which the source finds by a scan from the tail. -/
def placeApc (σ : ThreadApcs Apc Routine Arg) (environment : ApcEnvironment) (mode : KProcessorMode)
    (apc : Apc) : ThreadApcs Apc Routine Arg :=
  let list := σ.apcListHead environment mode
  if σ.isNormal apc then
    if mode ≠ .kernelMode then
      { σ with userApcPending := true }.setList environment mode (apc :: list)
    else σ.setList environment mode (list ++ [apc])
  else
    σ.setList environment mode (list.rdropWhile σ.isNormal ++ apc :: list.rtakeWhile σ.isNormal)

/-- The requests to the thread that end the source's function are left out. -/
def kiInsertQueueApc (σ : ThreadApcs Apc Routine Arg) (apc : Apc) : ThreadApcs Apc Routine Arg :=
  let environment := (σ.apc apc).apcStateIndex.getD σ.apcStateIndex
  let mode := (σ.apc apc).apcMode
  let record := { σ.apc apc with apcStateIndex := some environment }
  let σ := placeApc { σ with apc := Function.update σ.apc apc record } environment mode apc
  if σ.apcStateIndex = environment ∧ mode = .kernelMode then { σ with kernelApcPending := true } else σ

def ksInsertQueueApc (σ : ThreadApcs Apc Routine Arg) (apc : Apc) (systemArgument1 systemArgument2 : Arg) :
    ThreadApcs Apc Routine Arg × Bool :=
  if !σ.apcQueueable || (σ.apc apc).inserted then (σ, false)
  else
    let record := { σ.apc apc with
      systemArgument1 := systemArgument1
      systemArgument2 := systemArgument2
      inserted := true }
    (kiInsertQueueApc { σ with apc := Function.update σ.apc apc record } apc, true)

def takeUserApc (σ : ThreadApcs Apc Routine Arg) (apc : Apc) : ThreadApcs Apc Routine Arg :=
  let σ := { σ with userApcPending := false }
  let σ := (σ.removeEntryList σ.apcStateIndex .userMode apc).setInserted apc false
  { σ with frames := .userKernelRoutine apc :: σ.frames }

/-- The end of `KsDeliverApc`: at most one user call, and the return. -/
def deliverUserApc (σ : ThreadApcs Apc Routine Arg) (deliveryMode : KProcessorMode) :
    ThreadApcs Apc Routine Arg × Option Apc :=
  match σ.apcListHead σ.apcStateIndex .userMode with
  | [] => (σ, none)
  | apc :: _ =>
    if deliveryMode = .userMode ∧ σ.userApcPending then (takeUserApc σ apc, some apc) else (σ, none)

/-- The call is off the list, and its kernel routine is called. -/
def takeKernelApc (σ : ThreadApcs Apc Routine Arg) (deliveryMode : KProcessorMode) (apc : Apc) :
    ThreadApcs Apc Routine Arg :=
  let record := σ.apc apc
  let σ := (σ.removeEntryList σ.apcStateIndex .kernelMode apc).setInserted apc false
  { σ with
    frames := .kernelRoutine deliveryMode apc
      ⟨record.normalRoutine, record.normalContext, record.systemArgument1, record.systemArgument2⟩
      σ.kernelApcDisable :: σ.frames }

/-- One pass of the loop over the kernel calls, up to the call of a kernel
routine, with the call that was taken off the list. -/
def deliverPass (σ : ThreadApcs Apc Routine Arg) (deliveryMode : KProcessorMode) :
    ThreadApcs Apc Routine Arg × Option Apc :=
  match σ.apcListHead σ.apcStateIndex .kernelMode with
  | [] => deliverUserApc σ deliveryMode
  | apc :: _ =>
    if σ.specialApcDisable ≠ 0 then deliverUserApc σ deliveryMode
    else if σ.isNormal apc && (σ.kernelApcDisable ≠ 0 || σ.kernelApcInProgress) then
      deliverUserApc σ deliveryMode
    else (takeKernelApc σ deliveryMode apc, some apc)

def ksDeliverApc (σ : ThreadApcs Apc Routine Arg) (deliveryMode : KProcessorMode) :
    ThreadApcs Apc Routine Arg × Option Apc :=
  deliverPass { σ with kernelApcPending := false } deliveryMode

/-- `captured` is what the kernel routine leaves in the variables it was given. -/
def kernelRoutineReturns (σ : ThreadApcs Apc Routine Arg) (captured : Captured Routine Arg) :
    Option (ThreadApcs Apc Routine Arg × Option Apc) :=
  match σ.frames with
  | .kernelRoutine deliveryMode apc _ _ :: frames =>
    if captured.normalRoutine.isSome then
      some ({ σ with
        kernelApcInProgress := true
        frames := .normalRoutine deliveryMode apc :: frames }, none)
    else some (deliverPass { σ with frames := frames } deliveryMode)
  | .userKernelRoutine _ :: frames => some ({ σ with frames := frames }, none)
  | _ => none

def normalRoutineReturns (σ : ThreadApcs Apc Routine Arg) :
    Option (ThreadApcs Apc Routine Arg × Option Apc) :=
  match σ.frames with
  | .normalRoutine deliveryMode _ :: frames =>
    some (deliverPass { σ with kernelApcInProgress := false, frames := frames } deliveryMode)
  | _ => none

inductive ApcAction (Apc Routine Arg : Type) where
  | insert (apc : Apc) (systemArgument1 systemArgument2 : Arg)
  | deliver (deliveryMode : KProcessorMode)
  | kernelRoutineReturns (captured : Captured Routine Arg)
  | normalRoutineReturns
  | enterCriticalRegion
  | leaveCriticalRegion
  | enterGuardedRegion
  | leaveGuardedRegion

end VeaOS.Ks
