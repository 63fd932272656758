import VeaOS.Nvme.Queue

/-! Reads and writes over the I/O queue pair. A request is checked, given a free
identifier and submitted under the lock; the completion handler drains the completions
under the lock and completes their requests after it. -/
namespace VeaOS.Nvme
open Foundation
variable {Thread Oip : Type*}

def nvmeIoQueueDepth : Nat := 64

def nvmeIoQueueUsableEntries : Nat := nvmeIoQueueDepth - 1

inductive NvmeStatus where
  | success
  | pending
  | deviceNotReady
  | deviceBusy
  | invalidParameter
  | insufficientResources
  | ioDeviceError
  deriving DecidableEq

structure NvmeDisk where
  started : Bool
  namespaceId : UInt32
  namespaceBlocks : UInt64
  blockSize : UInt32
  blockSizeShift : UInt64

/-- The addresses of the buffer for the controller, and whether they needed a list. -/
structure Prp where
  prp1 : UInt64
  prp2 : UInt64
  list : Bool

/-- A request, with what building the addresses of its buffer gives. -/
structure ReadWrite (Oip : Type*) where
  oip : Oip
  isRead : Bool
  offset : BitVec 64
  length : UInt32
  hasBuffer : Bool
  prp : Except NvmeStatus Prp

/-- `serial` is the number of the submission. -/
structure RequestContext (Oip : Type*) where
  oip : Oip
  prpList : Bool
  length : UInt32
  serial : Nat

/-- The status and information that a request was completed with. -/
structure Completed (Oip : Type*) where
  oip : Oip
  status : NvmeStatus
  information : UInt32
  serial : Nat

/-- The requests taken off the queue that are not yet completed, with their statuses. -/
inductive Handler (Oip : Type*) where
  | idle
  | draining (completed : List (RequestContext Oip × BitVec 15))
  | completing (completed : List (RequestContext Oip × BitVec 15))

def Handler.batch : Handler Oip → List (RequestContext Oip × BitVec 15)
  | .idle => []
  | .draining completed => completed
  | .completing completed => completed

/-- `accepted` are the requests accepted and `taken` counts the completions consumed. A
slot of the table that is not in use is `none`. -/
structure IoState (Thread Oip : Type*) where
  queue : NvmeQueue
  nextCommandId : UInt16
  activeIoCommands : Nat
  ioRequests : Nat → Option (RequestContext Oip)
  holder : Option Thread
  handler : Thread → Handler Oip
  accepted : List (ReadWrite Oip)
  taken : Nat
  completed : List (Completed Oip)

inductive IoAction (Thread Oip : Type*) where
  | readWrite (disk : NvmeDisk) (request : ReadWrite Oip)
  /-- The handler acquires the lock. -/
  | processIoCompletion (thread : Thread)
  /-- The head of the loop of the handler. -/
  | nextEntry (thread : Thread)
  | completeRequest (thread : Thread)
  | fetch
  | post (i : Nat) (status : BitVec 15)

/-- The command for a request, without its identifier. -/
def buildCommand (disk : NvmeDisk) (request : ReadWrite Oip) : Except NvmeStatus (NvmeCommand × Bool) :=
  if !disk.started then .error .deviceNotReady
  else
    let byteOffset := UInt64.ofBitVec request.offset
    if !request.hasBuffer ∨ disk.blockSize = 0 ∨ request.offset.toInt < 0 ∨ request.length = 0 ∨
        request.length % disk.blockSize ≠ 0 ∨ byteOffset &&& (disk.blockSize - 1).toUInt64 ≠ 0 then
      .error .invalidParameter
    else
      let startLba := byteOffset >>> disk.blockSizeShift
      let blockCount := request.length / disk.blockSize
      if blockCount > 0x10000 ∨ startLba ≥ disk.namespaceBlocks ∨
          blockCount.toUInt64 > disk.namespaceBlocks - startLba then .error .invalidParameter
      else
        match request.prp with
        | .error status => .error status
        | .ok prp => .ok (⟨if request.isRead then 0x02 else 0x01, 0, disk.namespaceId, prp.prp1, prp.prp2,
            startLba.toUInt32, (startLba >>> 32).toUInt32, (blockCount - 1) &&& 0xFFFF⟩, prp.list)

namespace IoState
variable [DecidableEq Thread] (σ : IoState Thread Oip) (thread : Thread)

def setHandler (h : Handler Oip) : IoState Thread Oip := { σ with handler := Function.update σ.handler thread h }

/-- The first free identifier from the next one on, around the table. -/
def findCommandId : Option Nat :=
  ((List.range nvmeIoQueueDepth).map fun i => (σ.nextCommandId.toNat + i) % nvmeIoQueueDepth).find? fun k =>
    (σ.ioRequests k).isNone

/-- The request is entered under an identifier and its command submitted. -/
def accept (request : ReadWrite Oip) (command : NvmeCommand) (prpList : Bool) (k : Nat) : IoState Thread Oip :=
  { σ with
    queue := σ.queue.submit nvmeIoQueueDepth { command with commandId := UInt16.ofNat k }
    nextCommandId := UInt16.ofNat ((k + 1) % nvmeIoQueueDepth)
    activeIoCommands := σ.activeIoCommands + 1
    ioRequests := Function.update σ.ioRequests k
      (some ⟨request.oip, prpList, request.length, σ.queue.submitted.length⟩)
    accepted := σ.accepted ++ [request] }

def readWrite (disk : NvmeDisk) (request : ReadWrite Oip) : IoState Thread Oip × NvmeStatus :=
  match buildCommand disk request with
  | .error status => (σ, status)
  | .ok (command, prpList) =>
    if σ.activeIoCommands ≥ nvmeIoQueueUsableEntries then (σ, .deviceBusy)
    else
      match σ.findCommandId with
      | none => (σ, .deviceBusy)
      | some k => (σ.accept request command prpList k, .pending)

def advance : IoState Thread Oip :=
  let head := (σ.queue.completionHead + 1) % nvmeIoQueueDepth
  { σ with
    queue := { σ.queue with
      completionHead := head
      phase := if head = 0 then !σ.queue.phase else σ.queue.phase
      completionDoorbell := head }
    taken := σ.taken + 1 }

/-- The request of an identifier, where it is one that is in use. -/
def requestOf (commandId : UInt16) : Option (RequestContext Oip) :=
  if commandId.toNat < nvmeIoQueueDepth then σ.ioRequests commandId.toNat else none

/-- The request of the entry leaves the table and is kept for its completion. -/
def takeRequest (completed : List (RequestContext Oip × BitVec 15)) (context : RequestContext Oip)
    (entry : NvmeCompletion) : IoState Thread Oip :=
  { (σ.setHandler thread (.draining (completed ++ [(context, entry.status)]))).advance with
    ioRequests := Function.update σ.ioRequests entry.commandId.toNat none
    activeIoCommands := if σ.activeIoCommands ≠ 0 then σ.activeIoCommands - 1 else 0 }

def nextEntry (completed : List (RequestContext Oip × BitVec 15)) : IoState Thread Oip :=
  let entry := σ.queue.completion σ.queue.completionHead
  if entry.phase ≠ σ.queue.phase then { σ.setHandler thread (.completing completed) with holder := none }
  else
    match σ.requestOf entry.commandId with
    | some context => σ.takeRequest thread completed context entry
    | none => σ.advance

/-- What the request of a completion is completed with. -/
def outcome (context : RequestContext Oip) (status : BitVec 15) : Completed Oip :=
  if status = 0 then ⟨context.oip, .success, context.length, context.serial⟩
  else ⟨context.oip, .ioDeviceError, 0, context.serial⟩

def step : IoAction Thread Oip → Option (IoState Thread Oip)
  | .readWrite disk request => if σ.holder.isNone then some (σ.readWrite disk request).1 else none
  | .processIoCompletion thread =>
    match σ.holder, σ.handler thread with
    | none, .idle => some { σ.setHandler thread (.draining []) with holder := some thread }
    | _, _ => none
  | .nextEntry thread =>
    match σ.handler thread with
    | .draining completed => some (σ.nextEntry thread completed)
    | _ => none
  | .completeRequest thread =>
    match σ.handler thread with
    | .completing [] => some (σ.setHandler thread .idle)
    | .completing ((context, status) :: rest) =>
      some { σ.setHandler thread (.completing rest) with completed := outcome context status :: σ.completed }
    | _ => none
  | .fetch => (σ.queue.fetch nvmeIoQueueDepth).map fun q => { σ with queue := q }
  | .post i status => (σ.queue.post nvmeIoQueueDepth i status).map fun q => { σ with queue := q }

end IoState

/-- The identifiers go on from where the admin commands left them. -/
def nvmeCreateIoQueue (Thread Oip : Type*) (nextCommandId : UInt16) : IoState Thread Oip where
  queue := nvmeInitializeQueueState
  nextCommandId := nextCommandId
  activeIoCommands := 0
  ioRequests := fun _ => none
  holder := none
  handler := fun _ => .idle
  accepted := []
  taken := 0
  completed := []

end VeaOS.Nvme
