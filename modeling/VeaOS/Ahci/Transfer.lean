import Mathlib.Algebra.Order.Ring.Nat
import Mathlib.Data.List.Basic

/-! How an AHCI port moves the data of reads and writes: the parts of a request with their
commands, the entries of a command for the pages of a caller, the register that issues
commands, and the bounce buffer of the port, which holds copies. A copy is known by what it
is a copy of. -/
namespace VeaOS.Ahci
variable {Oip Space : Type*}

def pageSize : Nat := 4096

def sectorSize : Nat := 512

def ahciMaxPrdtEntries : Nat := 16

def maxChunkSize : Nat := ahciMaxPrdtEntries * 4096

/-- A page array that is mapped at an address, or an address alone, which may be `NULL`. -/
inductive Buffer where
  | mdl (mappedSystemVa byteOffset : Nat) (pageArray : Nat → Nat)
  | plain (userBuffer : Nat)

/-- A request, with the address space of its caller. -/
structure Request (Space : Type*) where
  byteOffset : Nat
  byteLength : Nat
  isWrite : Bool
  buffer : Buffer
  space : Space

/-- What a port finds: whether it has a bounce buffer, whether its controller supports
native queueing, and the pages that are present in the address spaces. -/
structure Machine (Space : Type*) where
  hasBounceBuffer : Bool
  supportsNcq : Bool
  frame : Space → Nat → Option Nat

/-- Where an address leads to, if its page is present. -/
def Machine.translate (m : Machine Space) (space : Space) (va : Nat) : Option Nat :=
  (m.frame space (va / pageSize)).map fun frame => frame * pageSize + va % pageSize

def Machine.mmGetPhysicalAddress (m : Machine Space) (space : Space) (va : Nat) : Nat :=
  (m.translate space va).getD 0

/-- Where byte `k` of the caller's buffer is. -/
def Request.address (m : Machine Space) (request : Request Space) (k : Nat) : Option Nat :=
  match request.buffer with
  | .mdl _ byteOffset pageArray =>
    some (pageArray ((byteOffset + k) / pageSize) * pageSize + (byteOffset + k) % pageSize)
  | .plain userBuffer => m.translate request.space (userBuffer + k)

inductive DataBase where
  | memory (address : Nat)
  | bounceBuffer
  deriving DecidableEq

structure Prd where
  base : DataBase
  byteCount : Nat
  deriving DecidableEq

inductive Cell where
  | memory (address : Nat)
  | bounce (j : Nat)
  deriving DecidableEq

/-- What the controller makes of an entry: the low bit of an address is taken as zero, and
a byte count is even. -/
def Prd.cells (entry : Prd) : List Cell :=
  (List.range (entry.byteCount + entry.byteCount % 2)).map fun j =>
    match entry.base with
    | .memory address => .memory (address - address % 2 + j)
    | .bounceBuffer => .bounce j

structure Command where
  lba : Nat
  sectorCount : Nat
  prdt : List Prd
  deriving DecidableEq

def Command.sectors (command : Command) : List Nat := List.range' command.lba command.sectorCount

def Command.cells (command : Command) : List Cell := command.prdt.flatMap Prd.cells

def Command.bytes (command : Command) : Nat := (command.prdt.map (·.byteCount)).sum

/-- The chunk context of a slot, with its command and how many bytes of it were moved. -/
structure ChunkContext (Oip Space : Type*) where
  masterOip : Oip
  request : Request Space
  currentStartLba : Nat
  remainingBytes : Nat
  transferredBytes : Nat
  bufferByteOffset : Nat
  usesBounceBuffer : Bool
  command : Command
  moved : Nat

/-- What a byte of the bounce buffer is a copy of. -/
inductive Held where
  | nothing
  | disk (byte : Nat)
  | memory (address : Nat)
  deriving DecidableEq

/-- A copy of what an address leads to. -/
def Held.ofMemory (address : Option Nat) : Held := address.elim .nothing .memory

def Held.disk? : Held → Option Nat
  | .disk byte => some byte
  | _ => none

def Held.memory? : Held → Option Nat
  | .memory address => some address
  | _ => none

/-- A byte that went from the disk to memory or back, each `none` where it is none of them. -/
structure Move where
  disk : Option Nat
  memory : Option Nat
  deriving DecidableEq

structure Record (Space : Type*) where
  request : Request Space
  commands : List Command
  moves : List Move
  information : Option Nat

structure Transfers (Oip Space : Type*) where
  /-- With the command that is in the table of the slot. -/
  chunkContext : Nat → Option (ChunkContext Oip Space)
  pendingOip : Nat → Option Oip
  ci : Nat → Bool
  /-- What was read of `PxCI` to issue the command of a slot, and is still to be written. -/
  issuing : Nat → List (Nat → Bool)
  bounceBuffer : Nat → Held
  records : Oip → Option (Record Space)

inductive TransferAction (Oip Space : Type*) where
  /-- Up to the read of `PxCI`. -/
  | readWrite (slot : Nat) (oip : Oip) (request : Request Space)
  /-- The write of `PxCI` with the bit of the slot. -/
  | issue (slot : Nat)
  /-- The controller moves the next byte of the command in a slot. -/
  | moveByte (slot : Nat)
  /-- The controller clears the bit of a command that ended. -/
  | finish (slot : Nat)
  /-- The completion routine finds a slot without its bit, in some address space. -/
  | complete (slot : Nat) (space : Space)

def isBufferAligned (virtualAddress length : Nat) : Bool := virtualAddress % 4 = 0 && length % 4 = 0

/-- One entry for each page, as long as the table has room. -/
def mdlEntries (pageArray : Nat → Nat) : (room pageIndex offsetInPage bytesRemaining : Nat) → List Prd
  | 0, _, _, _ => []
  | room + 1, pageIndex, offsetInPage, bytesRemaining =>
    if bytesRemaining > 0 then
      let chunkSize := min (pageSize - offsetInPage) bytesRemaining
      ⟨.memory (pageArray pageIndex * pageSize + offsetInPage), chunkSize⟩ ::
        mdlEntries pageArray room (pageIndex + 1) 0 (bytesRemaining - chunkSize)
    else []

namespace ChunkContext
variable (m : Machine Space) (space : Space) (chunk : ChunkContext Oip Space)

def chunkSize : Nat := min chunk.remainingBytes maxChunkSize

def userCurrentBuffer : Nat :=
  match chunk.request.buffer with
  | .mdl mappedSystemVa _ _ => mappedSystemVa + chunk.bufferByteOffset
  | .plain userBuffer => if userBuffer ≠ 0 then userBuffer + chunk.bufferByteOffset else 0

def needsBounce : Bool := !isBufferAligned chunk.userCurrentBuffer chunk.chunkSize && m.hasBounceBuffer

def entries : List Prd :=
  if chunk.needsBounce m then [⟨.bounceBuffer, chunk.chunkSize⟩]
  else
    match chunk.request.buffer with
    | .mdl _ byteOffset pageArray =>
      let totalOffset := byteOffset + chunk.bufferByteOffset
      mdlEntries pageArray ahciMaxPrdtEntries (totalOffset / pageSize) (totalOffset % pageSize) chunk.chunkSize
    | .plain userBuffer =>
      if userBuffer ≠ 0 then [⟨.memory (m.mmGetPhysicalAddress space chunk.userCurrentBuffer), chunk.chunkSize⟩]
      else []

/-- The command for the next part of the request; the address of a sector has 48 bits. -/
def nextCommand : Command where
  lba := chunk.currentStartLba % 281474976710656
  sectorCount := chunk.chunkSize / sectorSize
  prdt := chunk.entries m space

/-- The chunk context once its next command is in the table. -/
def issued : ChunkContext Oip Space :=
  { chunk with
    usesBounceBuffer := chunk.needsBounce m
    command := chunk.nextCommand m space
    moved := 0 }

/-- The chunk context after its command ended, if anything is left to transfer. -/
def advanced : ChunkContext Oip Space :=
  { chunk with
    transferredBytes := chunk.transferredBytes + chunk.chunkSize
    remainingBytes := chunk.remainingBytes - chunk.chunkSize
    currentStartLba := chunk.currentStartLba + chunk.chunkSize / sectorSize
    bufferByteOffset := chunk.bufferByteOffset + chunk.chunkSize }

end ChunkContext

namespace Transfers
variable [DecidableEq Oip] (m : Machine Space) (σ : Transfers Oip Space)

def log (oip : Oip) (f : Record Space → Record Space) : Transfers Oip Space :=
  { σ with records := Function.update σ.records oip ((σ.records oip).map f) }

/-- The bounce buffer gets what the caller wants written; there is nothing to get from a
page that is absent. -/
def copyIn (space : Space) (chunk : ChunkContext Oip Space) : Nat → Held := fun j =>
  if chunk.needsBounce m && chunk.request.isWrite && decide (j < chunk.chunkSize) then
    .ofMemory (m.translate space (chunk.userCurrentBuffer + j))
  else σ.bounceBuffer j

/-- `AhciDispatchSubChunk` up to the read of `PxCI`. -/
def ahciDispatchSubChunk (space : Space) (slot : Nat) (chunk : ChunkContext Oip Space) : Transfers Oip Space :=
  { σ with
    chunkContext := Function.update σ.chunkContext slot (some (chunk.issued m space))
    pendingOip := Function.update σ.pendingOip slot (some chunk.masterOip)
    issuing := Function.update σ.issuing slot (σ.issuing slot ++ [σ.ci])
    bounceBuffer := σ.copyIn m space chunk }.log chunk.masterOip
      fun r => { r with commands := r.commands ++ [chunk.nextCommand m space] }

/-- Its end. A bit that was read and has been cleared since is set once more, so that the
controller carries out again what is in the table of that slot. -/
def issueCommand (slot : Nat) (read : Nat → Bool) (rest : List (Nat → Bool)) : Transfers Oip Space :=
  { σ with
    chunkContext := fun t =>
      if read t && !σ.ci t then (σ.chunkContext t).map fun chunk => { chunk with moved := 0 }
      else σ.chunkContext t
    ci := fun t => σ.ci t || read t || t == slot
    issuing := Function.update σ.issuing slot rest }

/-- The context of a request that was accepted. -/
def startChunk (oip : Oip) (request : Request Space) : ChunkContext Oip Space where
  masterOip := oip
  request := request
  currentStartLba := request.byteOffset / sectorSize
  remainingBytes := request.byteLength
  transferredBytes := 0
  bufferByteOffset := 0
  usesBounceBuffer := false
  command := ⟨0, 0, []⟩
  moved := 0

def ahciPdoReadWrite (slot : Nat) (oip : Oip) (request : Request Space) : Transfers Oip Space :=
  if request.byteLength = 0 ∨ request.byteLength % sectorSize ≠ 0 then σ
  else
    { σ with records := Function.update σ.records oip (some ⟨request, [], [], none⟩) }.ahciDispatchSubChunk m
      request.space slot (startChunk oip request)

/-- The byte that the controller moves next. -/
def moveByte (slot : Nat) (chunk : ChunkContext Oip Space) : Transfers Oip Space :=
  let byte := chunk.command.lba * sectorSize + chunk.moved
  let τ := { σ with
    chunkContext := Function.update σ.chunkContext slot (some { chunk with moved := chunk.moved + 1 }) }
  match chunk.command.cells[chunk.moved]? with
  | none => τ
  | some (.memory address) => τ.log chunk.masterOip fun r => { r with moves := r.moves ++ [⟨some byte, some address⟩] }
  | some (.bounce j) =>
    if chunk.request.isWrite then
      τ.log chunk.masterOip fun r => { r with moves := r.moves ++ [⟨some byte, (σ.bounceBuffer j).memory?⟩] }
    else { τ with bounceBuffer := Function.update σ.bounceBuffer j (.disk byte) }

/-- What the completion routine copies from the bounce buffer to the caller. -/
def copyOut (space : Space) (chunk : ChunkContext Oip Space) : List Move :=
  if !chunk.request.isWrite && chunk.usesBounceBuffer && m.hasBounceBuffer && chunk.userCurrentBuffer != 0 then
    (List.range chunk.chunkSize).map fun j =>
      ⟨(σ.bounceBuffer j).disk?, m.translate space (chunk.userCurrentBuffer + j)⟩
  else []

def completeChunk (space : Space) (slot : Nat) (chunk : ChunkContext Oip Space) : Transfers Oip Space :=
  let τ := σ.log chunk.masterOip fun r => { r with moves := r.moves ++ σ.copyOut m space chunk }
  if chunk.advanced.remainingBytes > 0 then τ.ahciDispatchSubChunk m space slot chunk.advanced
  else
    { τ with pendingOip := Function.update τ.pendingOip slot none }.log chunk.masterOip
      fun r => { r with information := some chunk.advanced.transferredBytes }

def step : TransferAction Oip Space → Option (Transfers Oip Space)
  | .readWrite slot oip request =>
    if (σ.pendingOip slot).isNone && (σ.records oip).isNone then some (σ.ahciPdoReadWrite m slot oip request)
    else none
  | .issue slot =>
    match σ.issuing slot with
    | read :: rest => some (σ.issueCommand slot read rest)
    | [] => none
  | .moveByte slot => (σ.chunkContext slot).bind fun chunk =>
    if σ.ci slot && decide (chunk.moved < chunk.command.sectorCount * sectorSize) then some (σ.moveByte slot chunk)
    else none
  | .finish slot => (σ.chunkContext slot).bind fun chunk =>
    if σ.ci slot && decide (chunk.moved = chunk.command.sectorCount * sectorSize) then
      some { σ with ci := Function.update σ.ci slot false }
    else none
  -- With native queueing the routine looks at `PxSACT`, which is never written.
  | .complete slot space => (σ.chunkContext slot).bind fun chunk =>
    if (σ.pendingOip slot).isSome && (m.supportsNcq || !σ.ci slot) then some (σ.completeChunk m space slot chunk)
    else none

end Transfers

def noTransfers (Oip Space : Type*) : Transfers Oip Space where
  chunkContext := fun _ => none
  pendingOip := fun _ => none
  ci := fun _ => false
  issuing := fun _ => []
  bounceBuffer := fun _ => .nothing
  records := fun _ => none

end VeaOS.Ahci
