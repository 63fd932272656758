import VeaOS.Foundation.BoundaryTags
import VeaOS.Foundation.RingList
import VeaOS.Mm.BigPages

/-! The small blocks of the nonpaged pool. A page is cut into units of eight bytes,
and a block is known by the unit of its header. The links of a free block are its
second unit; they are kept apart from the headers here, as they are in the memory
of a block of two units or more. The statistics and the trackers are left out. -/
namespace VeaOS.Mm
open Foundation
variable {Page : Type*}

structure PoolHeader where
  previousSize : Nat
  blockSize : Nat
  poolType : Nat
  poolTag : BitVec 32

inductive PoolLink (Page : Type*) where
  | listHead (i : Nat)
  | freeBlock (page : Page) (unit : Nat)
  deriving DecidableEq

/-- A block in use: where the caller's bytes begin in the page, and how many it asked for. -/
structure LiveBlock (Page : Type*) where
  page : Page
  offset : Nat
  numberOfBytes : BitVec 32

/-- `pages` are the pages of the pool, and `placed` the sizes that the blocks had
when they were put on a free list. -/
structure SmallPool (Page : Type*) where
  headers : Page → Nat → PoolHeader
  links : RingLinks (PoolLink Page)
  pages : List Page
  live : List (LiveBlock Page)
  placed : List Nat

def tagOfFree : BitVec 32 := 0x65657246
def tagOfEnd : BitVec 32 := 0x20646E45

/-- The type in the header of a block in use: that of the nonpaged pool, and one. -/
def inUse : Nat := 1

def poolBlockSize (numberOfBytes : BitVec 32) : Nat :=
  (((numberOfBytes + sizeofPoolHeader + 7) &&& ~~~7) >>> 3).toNat

def LiveBlock.unit (ℓ : LiveBlock Page) : Nat := ℓ.offset / 8 - 1

namespace SmallPool
variable [DecidableEq Page] (σ : SmallPool Page)

def setHeader (page : Page) (unit : Nat) (f : PoolHeader → PoolHeader) : SmallPool Page :=
  { σ with
    headers := Function.update σ.headers page
      (Function.update (σ.headers page) unit (f (σ.headers page unit))) }

def ulpIsValidListPointer : PoolLink Page → Bool
  | .listHead i => i < 512
  | .freeBlock page unit => page ∈ σ.pages ∧ unit < 511

def ulpIsValidPoolBlockHeader (page : Page) (unit : Nat) : Bool :=
  let header := σ.headers page unit
  page ∈ σ.pages ∧ header.blockSize ≠ 0 ∧ header.blockSize < 512 ∧ unit + header.blockSize ≤ 511

def ulpCheckLinks (i : Nat) : Bool :=
  let listHead := PoolLink.listHead i
  let flink := σ.links.flink listHead
  let blink := σ.links.blink listHead
  (flink = listHead ∧ blink = listHead) ∨
  (σ.ulpIsValidListPointer flink ∧ σ.ulpIsValidListPointer blink ∧
    σ.links.blink flink = listHead ∧ σ.links.flink blink = listHead)

def ulpRemoveEntry (page : Page) (unit : Nat) : Option (SmallPool Page) :=
  let entry := PoolLink.freeBlock page unit
  let flink := σ.links.flink entry
  let blink := σ.links.blink entry
  if σ.ulpIsValidListPointer entry ∧ σ.ulpIsValidListPointer flink ∧ σ.ulpIsValidListPointer blink ∧
      σ.links.blink flink = entry ∧ σ.links.flink blink = entry then
    some { σ with links := (σ.links.setBlink flink blink).setFlink blink flink }
  else none

def ulpRemoveHead (i : Nat) : Option (SmallPool Page × Page × Nat) :=
  let listHead := PoolLink.listHead i
  if σ.ulpCheckLinks i then
    match σ.links.flink listHead with
    | .listHead _ => none
    | .freeBlock page unit =>
      let flink := σ.links.flink (.freeBlock page unit)
      some ({ σ with links := (σ.links.setFlink listHead flink).setBlink flink listHead }, page, unit)
  else none

def ulpInsertTail (i : Nat) (page : Page) (unit : Nat) : Option (SmallPool Page) :=
  let entered := { σ with
    links := σ.links.insertTailList (.listHead i) (.freeBlock page unit)
    placed := (σ.headers page unit).blockSize :: σ.placed }
  if σ.ulpCheckLinks i ∧ entered.ulpCheckLinks i then some entered else none

def ulpInsertHead (i : Nat) (page : Page) (unit : Nat) : Option (SmallPool Page) :=
  let entered := { σ with
    links := σ.links.insertHeadList (.listHead i) (.freeBlock page unit)
    placed := (σ.headers page unit).blockSize :: σ.placed }
  if σ.ulpCheckLinks i ∧ entered.ulpCheckLinks i then some entered else none

def ulpCheckHeader (page : Page) (unit : Nat) : Bool :=
  let entry := σ.headers page unit
  (if entry.previousSize ≠ 0 then
    entry.previousSize ≤ unit ∧ (σ.headers page (unit - entry.previousSize)).blockSize = entry.previousSize
  else unit = 0) ∧
  entry.blockSize ≠ 0 ∧
  (unit + entry.blockSize ≠ 512 →
    unit + entry.blockSize < 512 ∧
      (σ.headers page (unit + entry.blockSize)).previousSize = entry.blockSize)

def ulExpandPool (newPage : Page) : Option (SmallPool Page) :=
  let σ := { σ with pages := newPage :: σ.pages }
  let σ := σ.setHeader newPage 0 fun _ => ⟨0, 511, 0, tagOfFree⟩
  let σ := σ.setHeader newPage 511 fun _ => ⟨511, 1, inUse, tagOfEnd⟩
  σ.ulpInsertTail 511 newPage 0

/-- The units behind the first `blockSize` become a free block. -/
def splitBlock (page : Page) (unit blockSize : Nat) : Option (SmallPool Page) :=
  let whole := (σ.headers page unit).blockSize
  let remainingBlocks := whole - blockSize
  let σ := σ.setHeader page unit fun header => { header with blockSize := blockSize }
  let σ := σ.setHeader page (unit + blockSize) fun header =>
    { header with previousSize := blockSize, blockSize := remainingBlocks, poolType := 0 }
  let σ := if unit + whole ≠ 512 then
      σ.setHeader page (unit + whole) fun header => { header with previousSize := remainingBlocks }
    else σ
  σ.ulpInsertTail remainingBlocks page (unit + blockSize)

/-- The loop over the lists, from the one of the size that is asked for. -/
def firstFit (blockSize : Nat) : Option Nat :=
  (List.range' blockSize (512 - blockSize)).find? fun i => !σ.links.isListEmpty (.listHead i)

/-- The first block that is large enough, or none; nothing where the system stops. -/
def takeBlock (blockSize : Nat) (tag : BitVec 32) : Option (SmallPool Page × Option (Page × Nat)) :=
  match σ.firstFit blockSize with
  | none => some (σ, none)
  | some i =>
    (σ.ulpRemoveHead i).bind fun (σ, page, unit) =>
      if σ.ulpIsValidPoolBlockHeader page unit ∧ σ.ulpCheckHeader page unit then
        (if blockSize + 1 < (σ.headers page unit).blockSize then σ.splitBlock page unit blockSize
          else some σ).map fun σ =>
            (σ.setHeader page unit fun header => { header with poolType := inUse, poolTag := tag },
              some (page, unit))
      else none

/-- The pool is expanded, with what the page allocator answers, until a block is found. -/
def retryAllocation (blockSize : Nat) (tag : BitVec 32) :
    List Page → SmallPool Page → Option (SmallPool Page × Option (Page × Nat))
  | [], σ => σ.takeBlock blockSize tag
  | newPage :: supply, σ =>
    (σ.takeBlock blockSize tag).bind fun (σ, found) =>
      match found with
      | some block => some (σ, some block)
      | none => (σ.ulExpandPool newPage).bind (retryAllocation blockSize tag supply)

/-- A request; a big one leaves the small blocks as they are. -/
def ulAllocatePoolWithTag (numberOfBytes tag : BitVec 32) (supply : List Page) : Option (SmallPool Page) :=
  if 0xFFFFFFFF - sizeofPoolHeader - 7 < numberOfBytes ∨ isBigRequest numberOfBytes then some σ
  else
    (σ.retryAllocation (poolBlockSize numberOfBytes) tag supply).map fun (σ, found) =>
      match found with
      | none => σ
      | some (page, unit) => { σ with live := ⟨page, 8 * (unit + 1), numberOfBytes⟩ :: σ.live }

/-- A free block in front takes the freed one in. -/
def absorbPrevious (page : Page) (unit : Nat) : Option (SmallPool Page × Nat) :=
  let header := σ.headers page unit
  let prev := unit - header.previousSize
  if header.previousSize = 0 ∨ (σ.headers page prev).poolType ≠ 0 then some (σ, unit)
  else if σ.ulpIsValidPoolBlockHeader page prev then
    (σ.ulpRemoveEntry page prev).map fun σ =>
      (σ.setHeader page prev fun h => { h with blockSize := (h.blockSize + header.blockSize) % 512 }, prev)
  else none

def absorbNext (page : Page) (unit : Nat) : Option (SmallPool Page) :=
  let next := unit + (σ.headers page unit).blockSize
  let nextSize := (σ.headers page next).blockSize
  if next = 512 ∨ (σ.headers page next).poolType ≠ 0 then some σ
  else if σ.ulpIsValidPoolBlockHeader page next then
    (σ.ulpRemoveEntry page next).map fun σ =>
      σ.setHeader page unit fun h => { h with blockSize := (h.blockSize + nextSize) % 512 }
  else none

/-- The block is marked free, and put on its list unless it is a whole page. -/
def release (page : Page) (unit : Nat) : Option (SmallPool Page) :=
  let currentSize := (σ.headers page unit).blockSize
  let σ := if unit + currentSize ≠ 512 then
      σ.setHeader page (unit + currentSize) fun header => { header with previousSize := currentSize }
    else σ
  let σ := σ.setHeader page unit fun header => { header with poolType := 0, poolTag := tagOfFree }
  if currentSize = 511 then some { σ with pages := σ.pages.erase page }
  else σ.ulpInsertHead currentSize page unit

/-- A pointer into a page is freed. One to the start of a page is that of a big block. -/
def ulFreePoolWithTag (page : Page) (offset : Nat) (tag : BitVec 32) : Option (SmallPool Page) :=
  if offset = 0 then some σ
  else
    let unit := offset / 8 - 1
    let header := σ.headers page unit
    if offset % 8 = 0 ∧ header.poolType = inUse ∧ header.poolTag ≠ tagOfFree ∧
        (tag = 0 ∨ header.poolTag = tag) ∧ σ.ulpIsValidPoolBlockHeader page unit ∧
        σ.ulpCheckHeader page unit then
      let σ := { σ with live := σ.live.filter fun ℓ => ¬ (ℓ.page = page ∧ ℓ.offset = offset) }
      (σ.absorbPrevious page unit).bind fun (σ, unit) =>
        (σ.absorbNext page unit).bind fun σ => σ.release page unit
    else none

end SmallPool

/-- What is called, and the pages that the allocator has for an expansion of the pool. -/
inductive PoolCall (Page : Type*) where
  | allocate (numberOfBytes tag : BitVec 32) (supply : List Page)
  | free (page : Page) (offset : Nat) (tag : BitVec 32)

namespace SmallPool
variable [DecidableEq Page]

def step (σ : SmallPool Page) : PoolCall Page → Option (SmallPool Page)
  | .allocate numberOfBytes tag supply => σ.ulAllocatePoolWithTag numberOfBytes tag supply
  | .free page offset tag => σ.ulFreePoolWithTag page offset tag

/-- A pool without a page; what the headers are is left open. -/
def ulInitializePools (headers : Page → Nat → PoolHeader) : SmallPool Page where
  headers := headers
  links := ⟨id, id⟩
  pages := []
  live := []
  placed := []

/-- The page allocator hands out pages that the pool does not have, and a block that is
freed is in use. -/
def Admits (σ : SmallPool Page) : PoolCall Page → Prop
  | .allocate _ _ supply => supply.Nodup ∧ ∀ page ∈ supply, page ∉ σ.pages
  | .free page offset _ => offset = 0 ∨ ∃ ℓ ∈ σ.live, ℓ.page = page ∧ ℓ.offset = offset

instance (σ : SmallPool Page) (call : PoolCall Page) : Decidable (σ.Admits call) :=
  match call with
  | .allocate _ _ _ => inferInstanceAs (Decidable (_ ∧ _))
  | .free _ _ _ => inferInstanceAs (Decidable (_ ∨ _))

end SmallPool
end VeaOS.Mm
