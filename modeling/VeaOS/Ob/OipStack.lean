import Mathlib.Data.BitVec

/-! Request packets. A packet carries an array of stack locations; the location
that is current is known both by its number and by a pointer into the array. -/
namespace VeaOS.Ob

inductive OipStatus where
  | success
  | pending
  | moreProcessingRequired
  | notSupported
  | invalidParameter
  | other (code : Nat)
  deriving DecidableEq, Repr

inductive OipParameters where
  | zero
  | readWrite (length offset : Nat)
  | deviceControl (ioControlCode inputBufferLength outputBufferLength : Nat) (type3InputBuffer : Bool)

/-- A completion routine stands for the routine with its context. -/
structure OipStack (Object Routine : Type) where
  majorFunction : Nat
  control : Nat
  parameters : OipParameters
  targetObject : Option Object
  completionRoutine : Option Routine

structure OipInformation where
  status : OipStatus
  information : Nat
  deriving DecidableEq

structure OipFlags where
  deallocateOnCompletion : Bool
  bufferedIo : Bool
  deallocateBuffer : Bool
  inputOperation : Bool
  deriving DecidableEq

/-- The pointers to buffers, to the event and to the caller's information block
are known by whether they are set. `stack` are the locations of the array, and
`currentStackLocation` is an index into it. -/
structure Oip (Object Routine : Type) where
  stackCount : Nat
  /-- The array fits into the address space. -/
  representable : stackCount < 0x7FFFFFFF
  currentLocation : Int
  currentStackLocation : Int
  stack : Int → OipStack Object Routine
  flags : OipFlags
  mdlAddress : Bool
  systemBuffer : Bool
  userBuffer : Bool
  statusInformation : OipInformation
  userEvent : Bool
  userInfoBlock : Bool

inductive OipResource where
  | systemBuffer
  | mdl
  | oip
  deriving DecidableEq, Repr

/-- The packet and what its completion does to others: `copied` is the length of
the copy to the caller's buffer, `infoBlock` what was written to the caller's
information block, `eventSets` how often the event was set. -/
structure OipState (Object Routine : Type) where
  oip : Oip Object Routine
  systemBytes : Nat → BitVec 8
  userBytes : Nat → BitVec 8
  copied : Nat
  infoBlock : List OipInformation
  eventSets : Nat
  freed : List OipResource

variable {Object Routine : Type}

def OipStack.zero : OipStack Object Routine := ⟨0, 0, .zero, none, none⟩

def obioAllocateOip (stackCount : Nat) (representable : stackCount < 0x7FFFFFFF) : Oip Object Routine where
  stackCount := stackCount
  representable := representable
  currentLocation := stackCount + 1
  currentStackLocation := stackCount
  stack _ := .zero
  flags := ⟨false, false, false, false⟩
  mdlAddress := false
  systemBuffer := false
  userBuffer := false
  statusInformation := ⟨.success, 0⟩
  userEvent := false
  userInfoBlock := false

theorem one_representable : 1 < 0x7FFFFFFF := by decide

theorem two_representable : 2 < 0x7FFFFFFF := by decide

/-- The value of a `LONG` that is compared with a `ULONG`. -/
def ulong (value : Int) : Nat := (value % 0x100000000).toNat

namespace OipState
variable (s : OipState Object Routine)

def setOip (oip : Oip Object Routine) : OipState Object Routine := { s with oip := oip }

def setStatus (status : OipStatus) : OipState Object Routine :=
  s.setOip { s.oip with statusInformation := { s.oip.statusInformation with status := status } }

def setStack (location : Int) (stack : OipStack Object Routine) : OipState Object Routine :=
  s.setOip { s.oip with stack := Function.update s.oip.stack location stack }

/-- `ObioGetCurrentOipStackLocation` -/
def current : OipStack Object Routine := s.oip.stack s.oip.currentStackLocation

/-- `ObioGetNextOipStackLocation` -/
def next : OipStack Object Routine := s.oip.stack (s.oip.currentStackLocation - 1)

@[simp] theorem stack_setStack (location : Int) (stack : OipStack Object Routine) :
    (s.setStack location stack).oip.stack location = stack := Function.update_self ..

theorem stack_setStack_ne (other : i ≠ location) (stack : OipStack Object Routine) :
    (s.setStack location stack).oip.stack i = s.oip.stack i := Function.update_of_ne other ..

end OipState

/-- The status that is returned at once, or nothing where the handler of the
target goes on with the packet. -/
def obioCallObject (s : OipState Object Routine) (targetObject : Object) (interruptHandler : Bool) :
    OipState Object Routine × Option OipStatus :=
  let s := s.setOip { s.oip with currentLocation := s.oip.currentLocation - 1 }
  if s.oip.currentLocation ≤ 0 then (s, some .invalidParameter)
  else
    let s := s.setOip { s.oip with currentStackLocation := s.oip.currentStackLocation - 1 }
    let s := s.setStack s.oip.currentStackLocation { s.current with targetObject := some targetObject }
    if interruptHandler then (s, none) else (s.setStatus .notSupported, some .notSupported)

def obioSkipCurrentOipStackLocation (s : OipState Object Routine) : OipState Object Routine :=
  s.setOip { s.oip with
    currentLocation := s.oip.currentLocation + 1
    currentStackLocation := s.oip.currentStackLocation + 1 }

def obioCopyCurrentOipStackLocationToNext (s : OipState Object Routine) : OipState Object Routine :=
  s.setStack (s.oip.currentStackLocation - 1) { s.current with control := 0 }

def obioFreeOip (s : OipState Object Routine) : OipState Object Routine :=
  let s := if s.oip.mdlAddress then
      { s.setOip { s.oip with mdlAddress := false } with freed := s.freed ++ [.mdl] } else s
  let s := if s.oip.flags.deallocateBuffer && s.oip.systemBuffer then
      { s.setOip { s.oip with systemBuffer := false } with freed := s.freed ++ [.systemBuffer] } else s
  { s with freed := s.freed ++ [.oip] }

section Completion

inductive OipBugCheck where
  | oipStackCorruption
  | oipMultipleCompleteRequests
  deriving DecidableEq, Repr

inductive CompletionOutcome where
  | finished
  /-- A routine returned `STATUS_MORE_PROCESSING_REQUIRED`. -/
  | suspended
  | bugCheck (code : OipBugCheck)
  deriving DecidableEq, Repr

/-- What a completion routine does to the result and to the system buffer, and
the status it returns. -/
def RoutineAnswer : Type :=
  OipInformation × (Nat → BitVec 8) → (OipInformation × (Nat → BitVec 8)) × OipStatus

def OipState.setData (s : OipState Object Routine) (data : OipInformation × (Nat → BitVec 8)) :
    OipState Object Routine :=
  { s.setOip { s.oip with statusInformation := data.1 } with systemBytes := data.2 }

/-- The loop of `ObioCompleteRequest`, with the routines it called. The routine
of a location gives the answer for the location. -/
def completionLoop (answers : Int → RoutineAnswer) :
    Nat → OipState Object Routine → OipState Object Routine × List Routine × CompletionOutcome
  | 0, s => (s, [], .finished)
  | fuel + 1, s =>
    if s.oip.stackCount < ulong s.oip.currentLocation then (s, [], .finished)
    else if (s.oip.stackCount : Int) ≤ s.oip.currentStackLocation then (s, [], .bugCheck .oipStackCorruption)
    else match s.current.completionRoutine with
      | some routine =>
        let answer := answers s.oip.currentLocation (s.oip.statusInformation, s.systemBytes)
        let s := s.setData answer.1
        if answer.2 = .moreProcessingRequired then (s, [routine], .suspended)
        else
          let (s, called, outcome) := completionLoop answers fuel (obioSkipCurrentOipStackLocation s)
          (s, routine :: called, outcome)
      | none => completionLoop answers fuel (obioSkipCurrentOipStackLocation s)

def oipMjDeviceControl : Nat := 0x05
def oipMjInternalDeviceCtl : Nat := 0x06
def oipMjFileSystemControl : Nat := 0x0F

/-- Whether the system buffer is copied back for the major function that was
noted where the completion started. -/
def copiesBack (oip : Oip Object Routine) (requestMajor : Nat) : Bool :=
  oip.flags.inputOperation && oip.flags.bufferedIo && oip.userBuffer && oip.systemBuffer &&
    0 < oip.statusInformation.information &&
    (requestMajor == oipMjDeviceControl || requestMajor == oipMjFileSystemControl)

def copyBack (s : OipState Object Routine) (requestMajor : Nat) : OipState Object Routine :=
  if copiesBack s.oip requestMajor then
    let length := s.oip.statusInformation.information
    { s with userBytes := fun i => if i < length then s.systemBytes i else s.userBytes i, copied := length }
  else s

/-- The buffers of a packet that is freed on its completion. -/
def releaseBuffers (s : OipState Object Routine) : OipState Object Routine :=
  if s.oip.flags.deallocateOnCompletion then
    let s := if s.oip.flags.deallocateBuffer && s.oip.systemBuffer then
        { s.setOip { s.oip with systemBuffer := false } with freed := s.freed ++ [.systemBuffer] } else s
    if s.oip.mdlAddress then
      { s.setOip { s.oip with mdlAddress := false } with freed := s.freed ++ [.mdl] } else s
  else s

def writeInfoBlock (s : OipState Object Routine) : OipState Object Routine :=
  if s.oip.userInfoBlock then { s with infoBlock := s.infoBlock ++ [s.oip.statusInformation] } else s

def setUserEvent (s : OipState Object Routine) : OipState Object Routine :=
  if s.oip.userEvent then { s with eventSets := s.eventSets + 1 } else s

def releaseOip (s : OipState Object Routine) : OipState Object Routine :=
  if s.oip.flags.deallocateOnCompletion then obioFreeOip s else s

/-- The major function of the location where a completion starts; the zero of
`RequestMajor` where it starts above the array. -/
def requestMajor (oip : Oip Object Routine) : Nat :=
  if ulong oip.currentLocation ≤ oip.stackCount then (oip.stack oip.currentStackLocation).majorFunction else 0

/-- What `ObioCompleteRequest` does once the loop has ended. -/
def finishRequest (s : OipState Object Routine) (requestMajor : Nat) : OipState Object Routine :=
  releaseOip (setUserEvent (writeInfoBlock (releaseBuffers (copyBack s requestMajor))))

def obioCompleteRequest (s : OipState Object Routine) (answers : Int → RoutineAnswer) :
    OipState Object Routine × List Routine × CompletionOutcome :=
  if s.oip.stackCount + 1 < ulong s.oip.currentLocation then (s, [], .bugCheck .oipMultipleCompleteRequests)
  else
    let major := requestMajor s.oip
    match completionLoop answers (s.oip.stackCount + 1) s with
    | (s, called, .finished) => (finishRequest s major, called, .finished)
    | (s, called, outcome) => (s, called, outcome)

end Completion
end VeaOS.Ob
