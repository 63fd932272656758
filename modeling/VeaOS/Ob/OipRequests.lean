import VeaOS.Ob.OipStack

/-! The builders of request packets, with the buffers they attach. -/
namespace VeaOS.Ob
variable {Object Routine : Type}

structure OipAllocations where
  oip : Bool
  systemBuffer : Bool
  mdl : Bool

/-- A build that fails gives its packet back. -/
inductive OipBuild (Object Routine : Type) where
  | refused
  | failed (s : OipState Object Routine)
  | built (s : OipState Object Routine)

structure DeviceIoControl where
  ioControlCode : Nat
  inputBuffer : Bool
  inputBytes : Nat → BitVec 8
  inputBufferLength : Nat
  outputBuffer : Bool
  outputBytes : Nat → BitVec 8
  outputBufferLength : Nat
  internalDeviceIoControl : Bool
  event : Bool
  statusInformation : Bool

def oipMethodBuffered : Nat := 0
def oipMethodInDirect : Nat := 1
def oipMethodOutDirect : Nat := 2

def OipState.setNext (s : OipState Object Routine) (stack : OipStack Object Routine) : OipState Object Routine :=
  s.setStack (s.oip.currentStackLocation - 1) stack

/-- A system buffer of zeros; what lies behind it is the rest of the pool. -/
def attachSystemBuffer (s : OipState Object Routine) (length : Nat) : OipState Object Routine :=
  { s.setOip { s.oip with
      systemBuffer := true
      flags := { s.oip.flags with bufferedIo := true, deallocateBuffer := true } } with
    systemBytes := fun i => if i < length then 0 else s.systemBytes i }

def fillSystemBuffer (s : OipState Object Routine) (bytes : Nat → BitVec 8) (length : Nat) :
    OipState Object Routine :=
  { s with systemBytes := fun i => if i < length then bytes i else s.systemBytes i }

def setInputOperation (s : OipState Object Routine) : OipState Object Routine :=
  s.setOip { s.oip with flags := { s.oip.flags with inputOperation := true } }

/-- The end of `ObioBuildDeviceIoControlRequest` for a buffer or a list of pages that was not allocated. -/
def deviceControlFailure (s : OipState Object Routine) : OipState Object Routine :=
  let s := if s.oip.flags.deallocateBuffer && s.oip.systemBuffer then
      { s.setOip { s.oip with systemBuffer := false } with freed := s.freed ++ [.systemBuffer] } else s
  obioFreeOip (s.setOip { s.oip with
    flags := { s.oip.flags with deallocateBuffer := false, deallocateOnCompletion := false } })

def DeviceIoControl.bufferLength (request : DeviceIoControl) : Nat :=
  if request.inputBufferLength > request.outputBufferLength then request.inputBufferLength
  else request.outputBufferLength

def DeviceIoControl.majorFunction (request : DeviceIoControl) : Nat :=
  if request.internalDeviceIoControl then oipMjInternalDeviceCtl else oipMjDeviceControl

def attachBuffered (s : OipState Object Routine) (request : DeviceIoControl) (allocations : OipAllocations) :
    OipBuild Object Routine :=
  if request.bufferLength = 0 then .built s
  else if !allocations.systemBuffer then .failed (deviceControlFailure s)
  else
    let s := attachSystemBuffer s request.bufferLength
    let s := if request.inputBufferLength ≠ 0 then
        fillSystemBuffer s request.inputBytes request.inputBufferLength else s
    .built (if request.outputBuffer then setInputOperation s else s)

def attachPages (s : OipState Object Routine) (request : DeviceIoControl) (allocations : OipAllocations) :
    OipBuild Object Routine :=
  if request.outputBufferLength = 0 then .built s
  else if !allocations.mdl then .failed (deviceControlFailure s)
  else .built (s.setOip { s.oip with mdlAddress := true })

def attachDirect (s : OipState Object Routine) (request : DeviceIoControl) (allocations : OipAllocations) :
    OipBuild Object Routine :=
  if request.inputBufferLength = 0 then attachPages s request allocations
  else if !allocations.systemBuffer then .failed (deviceControlFailure s)
  else attachPages (fillSystemBuffer (attachSystemBuffer s request.inputBufferLength) request.inputBytes
    request.inputBufferLength) request allocations

/-- The packet before its buffers are attached. -/
def deviceControlPacket (deviceObject : Object) (stackCount : Nat) (representable : stackCount < 0x7FFFFFFF)
    (request : DeviceIoControl) (pool : Nat → BitVec 8) : OipState Object Routine :=
  let s : OipState Object Routine :=
    { oip := { obioAllocateOip stackCount representable with
        statusInformation := ⟨.pending, 0⟩
        userEvent := request.event
        userInfoBlock := request.statusInformation
        userBuffer := request.outputBuffer
        flags := ⟨true, false, false, false⟩ }
      systemBytes := pool
      userBytes := request.outputBytes
      copied := 0
      infoBlock := []
      eventSets := 0
      freed := [] }
  s.setNext { s.next with
    majorFunction := request.majorFunction
    targetObject := some deviceObject
    parameters := .deviceControl request.ioControlCode request.inputBufferLength request.outputBufferLength false }

def obioBuildDeviceIoControlRequest (deviceObject : Option Object) (stackCount : Nat)
    (representable : stackCount < 0x7FFFFFFF) (request : DeviceIoControl) (pool : Nat → BitVec 8)
    (allocations : OipAllocations) : OipBuild Object Routine :=
  match deviceObject with
  | none => .refused
  | some deviceObject =>
    if request.inputBufferLength ≠ 0 ∧ !request.inputBuffer ∨
        request.outputBufferLength ≠ 0 ∧ !request.outputBuffer then .refused
    else if stackCount = 0 then .refused
    else if !allocations.oip then .refused
    else
      let s := deviceControlPacket deviceObject stackCount representable request pool
      let method := request.ioControlCode &&& 0x3
      if method = oipMethodBuffered then attachBuffered s request allocations
      else if method = oipMethodInDirect ∨ method = oipMethodOutDirect then attachDirect s request allocations
      else .built (s.setNext { s.next with
        parameters := .deviceControl request.ioControlCode request.inputBufferLength
          request.outputBufferLength request.inputBuffer })

structure FsdRequest where
  majorFunction : Nat
  buffer : Bool
  bufferBytes : Nat → BitVec 8
  length : Nat
  startingOffset : Option Nat
  /-- The flags of the device object -/
  doBufferedIo : Bool
  doDirectIo : Bool
  statusInformation : Bool

def oipMjRead : Nat := 0x03
def oipMjWrite : Nat := 0x04
def oipMjPower : Nat := 0x07
def oipMjPnp : Nat := 0x08
def oipMjFlushBuffers : Nat := 0x0B
def oipMjShutdown : Nat := 0x0D

/-- The branches of a device with buffered transfer and of one with neither flag. -/
def attachTransferBuffer (s : OipState Object Routine) (request : FsdRequest) (allocations : OipAllocations) :
    OipBuild Object Routine :=
  if request.length = 0 then .built s
  else if !allocations.systemBuffer then .failed (obioFreeOip s)
  else
    let s := attachSystemBuffer s request.length
    .built (if request.majorFunction = oipMjWrite then fillSystemBuffer s request.bufferBytes request.length
      else setInputOperation s)

def attachTransferPages (s : OipState Object Routine) (request : FsdRequest) (allocations : OipAllocations) :
    OipBuild Object Routine :=
  if request.length = 0 then .built s
  else if !allocations.mdl then .failed (obioFreeOip s)
  else .built (s.setOip { s.oip with mdlAddress := true })

def obioBuildAsynchronousFsdRequest (object : Object) (stackCount : Nat) (representable : stackCount < 0x7FFFFFFF)
    (request : FsdRequest) (pool : Nat → BitVec 8) (allocations : OipAllocations) : OipBuild Object Routine :=
  if !allocations.oip then .refused
  else
    let s : OipState Object Routine :=
      { oip := { obioAllocateOip stackCount representable with
          userInfoBlock := request.statusInformation
          flags := ⟨true, false, false, false⟩ }
        systemBytes := pool
        userBytes := request.bufferBytes
        copied := 0
        infoBlock := []
        eventSets := 0
        freed := [] }
    let s := s.setNext { s.next with
      majorFunction := request.majorFunction % 0x100
      targetObject := some object
      parameters := .readWrite request.length (request.startingOffset.getD 0) }
    if request.majorFunction ≠ oipMjFlushBuffers ∧ request.majorFunction ≠ oipMjShutdown ∧
        request.majorFunction ≠ oipMjPnp ∧ request.majorFunction ≠ oipMjPower then
      if request.length ≠ 0 ∧ !request.buffer then .failed (obioFreeOip s)
      else
        let s := s.setOip { s.oip with userBuffer := request.buffer }
        if request.doBufferedIo then attachTransferBuffer s request allocations
        else if request.doDirectIo then attachTransferPages s request allocations
        else attachTransferBuffer s request allocations
    else .built s

def obioBuildSynchronusFsdRequest (object : Object) (stackCount : Nat) (representable : stackCount < 0x7FFFFFFF)
    (request : FsdRequest) (event : Bool) (pool : Nat → BitVec 8) (allocations : OipAllocations) :
    OipBuild Object Routine :=
  match obioBuildAsynchronousFsdRequest object stackCount representable request pool allocations with
  | .built s => .built (s.setOip { s.oip with userEvent := event })
  | other => other

end VeaOS.Ob
