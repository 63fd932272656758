import Mathlib.Algebra.GroupWithZero.Nat
import Mathlib.Data.List.Basic

/-! The resources that firmware reports for a device: a buffer of small and large items, which is
read twice, to count the resources and to describe them. -/
namespace VeaOS.Vocpi

def acpiResourceIsLarge (header : BitVec 8) : Bool := header &&& 0x80 != 0

def acpiSmallResourceTag (header : BitVec 8) : BitVec 8 := (header >>> 3) &&& 0x0F

def acpiSmallResourceLength (header : BitVec 8) : Nat := (header &&& 0x07).toNat

def acpiSmallTagIrq : BitVec 8 := 0x04
def acpiSmallTagIo : BitVec 8 := 0x08
def acpiSmallTagEnd : BitVec 8 := 0x0F

inductive RequiredResource where
  | port (length alignment : BitVec 32) (minimumAddress maximumAddress : BitVec 64)
  | interrupt (minimumVector maximumVector : BitVec 32)
  deriving DecidableEq, Repr

/-- What is at an offset from the start of the buffer. Offsets are of 32 bits. -/
abbrev CrsMemory := Nat → BitVec 8

def offset (index distance : Nat) : Nat := (index + distance) % 2 ^ 32

def word (memory : CrsMemory) (index distance : Nat) : BitVec 16 :=
  memory (offset index (distance + 1)) ++ memory (offset index distance)

def nextIndex (memory : CrsMemory) (index : Nat) : Nat :=
  if acpiResourceIsLarge (memory index) then offset index (3 + (word memory index 1).toNat)
  else offset index (1 + acpiSmallResourceLength (memory index))

/-- One of the two loops, by what it does with a small item and which other offsets it reads there.
The result comes with all offsets that were read, and is missing while the loop has not ended. -/
def scanItems {σ : Type} (memory : CrsMemory) (bufferSize : Nat) (visit : Nat → σ → σ)
    (touches : Nat → List Nat) : Nat → Nat → σ → List Nat → Option (σ × List Nat)
  | 0, _, _, _ => none
  | fuel + 1, index, state, reads =>
    if index < bufferSize then
      if acpiResourceIsLarge (memory index) then
        scanItems memory bufferSize visit touches fuel (nextIndex memory index) state
          (reads ++ [index, offset index 1, offset index 2])
      else if acpiSmallResourceTag (memory index) = acpiSmallTagEnd then some (state, reads ++ [index])
      else scanItems memory bufferSize visit touches fuel (nextIndex memory index) (visit index state)
        (reads ++ index :: touches index)
    else some (state, reads)

/-- The first loop counts the items for ports and interrupts. -/
def countItem (memory : CrsMemory) (index resourceCount : Nat) : Nat :=
  let tag := acpiSmallResourceTag (memory index)
  if tag = acpiSmallTagIo ∨ tag = acpiSmallTagIrq then resourceCount + 1 else resourceCount

/-- The turns that are left of the loop over the mask. -/
def irqNumber : Nat → BitVec 16 → Nat → Nat
  | 0, _, irqNum => irqNum
  | left + 1, irqMask, irqNum =>
    if irqMask &&& 1 = 0 then irqNumber left (irqMask >>> 1) (irqNum + 1) else irqNum

def fillItem (memory : CrsMemory) (index : Nat) (descriptors : List RequiredResource) : List RequiredResource :=
  let tag := acpiSmallResourceTag (memory index)
  if tag = acpiSmallTagIo then
    descriptors ++ [.port ((memory (offset index 7)).setWidth 32) ((memory (offset index 6)).setWidth 32)
      ((word memory index 2).setWidth 64) ((word memory index 4).setWidth 64)]
  else if tag = acpiSmallTagIrq then
    let irqNum := BitVec.ofNat 32 (irqNumber 16 (word memory index 1) 0)
    descriptors ++ [.interrupt irqNum irqNum]
  else descriptors

def fillTouches (memory : CrsMemory) (index : Nat) : List Nat :=
  let tag := acpiSmallResourceTag (memory index)
  if tag = acpiSmallTagIo then
    [offset index 2, offset index 3, offset index 4, offset index 5, offset index 6, offset index 7]
  else if tag = acpiSmallTagIrq then [offset index 1, offset index 2]
  else []

def countPass (memory : CrsMemory) (bufferSize fuel : Nat) : Option (Nat × List Nat) :=
  scanItems memory bufferSize (countItem memory) (fun _ => []) fuel 0 0 []

def fillPass (memory : CrsMemory) (bufferSize fuel : Nat) : Option (List RequiredResource × List Nat) :=
  scanItems memory bufferSize (fillItem memory) (fillTouches memory) fuel 0 [] []

inductive CrsStatus where
  | success
  | evaluated (status : BitVec 32)
  | invalidParameter
  | invalidDatatype
  | unsuccessful
  | notFound
  | insufficientResources
  deriving DecidableEq, Repr

inductive VocpiObject where
  | buffer (pointer : Option CrsMemory) (length : BitVec 32)
  | other

structure RequiredResourcesListEx where
  listSize : Nat
  alternativeLists : Nat
  version : Nat
  revision : Nat
  descriptors : List RequiredResource
  deriving DecidableEq, Repr

/-- What a query returns, with the count of the first loop and the offsets that were read. -/
structure CrsOutcome where
  status : CrsStatus
  list : Option RequiredResourcesListEx
  resourceCount : Nat
  reads : List Nat
  deriving DecidableEq

def allocationSize (resourceCount : Nat) : Nat := (68 + (resourceCount - 1) * 32) % 2 ^ 32

def queryCrsBuffer (memory : CrsMemory) (bufferSize fuel : Nat) (allocated : Bool) : Option CrsOutcome :=
  match countPass memory bufferSize fuel with
  | none => none
  | some (resourceCount, reads) =>
    if resourceCount = 0 then some ⟨.notFound, none, 0, reads⟩
    else if !allocated then some ⟨.insufficientResources, none, resourceCount, reads⟩
    else
      match fillPass memory bufferSize fuel with
      | none => none
      | some (descriptors, reads') =>
        some ⟨.success, some ⟨allocationSize resourceCount, 1, 1, 1, descriptors⟩, resourceCount,
          reads ++ reads'⟩

def vocpiQueryNodeResourcesRequirement (parametersGiven : Bool) (crs : BitVec 32 × Option VocpiObject)
    (allocated : Bool) (fuel : Nat) : Option CrsOutcome :=
  if !parametersGiven then some ⟨.invalidParameter, none, 0, []⟩
  else match crs with
    | (status, none) => some ⟨.evaluated status, none, 0, []⟩
    | (status, some returnObject) =>
      if status.msb then some ⟨.evaluated status, none, 0, []⟩
      else match returnObject with
        | .other => some ⟨.invalidDatatype, none, 0, []⟩
        | .buffer none _ => some ⟨.unsuccessful, none, 0, []⟩
        | .buffer (some memory) length =>
          if length = 0 then some ⟨.unsuccessful, none, 0, []⟩
          else queryCrsBuffer memory length.toNat fuel allocated

end VeaOS.Vocpi
