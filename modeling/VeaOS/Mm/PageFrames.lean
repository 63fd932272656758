import VeaOS.Foundation.DoubleList
import VeaOS.Foundation.Runs

/-! The database of physical pages. A frame is free, active, reserved or zeroed;
the links in its entry put it on the list of the free pages or on that of the
zeroed ones. -/
namespace VeaOS.Mm
open Foundation

inductive PipState where
  | free
  | active
  | reserved
  | zeroed
  deriving DecidableEq, Repr

structure Pip where
  flink : Option Nat
  blink : Option Nat
  shareCount : BitVec 16
  referenceCount : BitVec 16
  state : PipState

/-- The entries, and the heads of the two lists. -/
structure PipDatabase where
  pip : Nat → Pip
  mmFirstFreePip : Option Nat
  mmFirstZeroedPip : Option Nat

namespace PipDatabase

def setPip (db : PipDatabase) (index : Nat) (entry : Pip) : PipDatabase :=
  { db with pip := fun x => if x = index then entry else db.pip x }

def setFlink (db : PipDatabase) (index : Nat) (flink : Option Nat) : PipDatabase :=
  db.setPip index { db.pip index with flink }

def setBlink (db : PipDatabase) (index : Nat) (blink : Option Nat) : PipDatabase :=
  db.setPip index { db.pip index with blink }

/-- The list of the free pages, in the links of the entries. -/
def freeLinks (db : PipDatabase) : DoubleList Nat :=
  ⟨fun x => (db.pip x).flink, fun x => (db.pip x).blink, db.mmFirstFreePip⟩

end PipDatabase

section Model

def frameOf (physicalAddress : BitVec 32) : Nat := physicalAddress.toNat / 4096

def mmTotalPages (highestAddress : BitVec 32) : Nat := highestAddress.toNat / 4096

def mmpInsertZeroedPageHead (db : PipDatabase) (index : Nat) : PipDatabase :=
  let db := (db.setFlink index db.mmFirstZeroedPip).setBlink index none
  let db := match db.mmFirstZeroedPip with
    | some head => db.setBlink head (some index)
    | none => db
  { db with mmFirstZeroedPip := some index }

def mmpUnlinkFreePage (db : PipDatabase) (index : Nat) : PipDatabase :=
  let flink := (db.pip index).flink
  let blink := (db.pip index).blink
  let db := match blink with
    | some previous => db.setFlink previous flink
    | none => { db with mmFirstFreePip := flink }
  let db := match flink with
    | some next => db.setBlink next blink
    | none => db
  (db.setFlink index none).setBlink index none

def mmpInsertFreePageHead (db : PipDatabase) (index : Nat) : PipDatabase :=
  let db := (db.setFlink index db.mmFirstFreePip).setBlink index none
  let db := match db.mmFirstFreePip with
    | some head => db.setBlink head (some index)
    | none => db
  { db with mmFirstFreePip := some index }

variable (total : Nat)

def mmReferencePhysicalPage (db : PipDatabase) (physicalAddress : BitVec 32) : PipDatabase :=
  let index := frameOf physicalAddress
  if index ≥ total then db
  else db.setPip index
    { db.pip index with referenceCount := (db.pip index).referenceCount + 1 }

def mmDereferencePhysicalPage (db : PipDatabase) (physicalAddress : BitVec 32) : PipDatabase :=
  let index := frameOf physicalAddress
  if index ≥ total then db
  else if (db.pip index).referenceCount > 0 then
    let referenceCount := (db.pip index).referenceCount - 1
    let db := db.setPip index { db.pip index with referenceCount }
    if referenceCount = 0 then
      mmpInsertFreePageHead
        (db.setPip index { db.pip index with shareCount := 0, state := .free }) index
    else db
  else db

def activate (db : PipDatabase) (index : Nat) : PipDatabase :=
  let db := mmpUnlinkFreePage db index
  db.setPip index { db.pip index with state := .active, referenceCount := 1, shareCount := 1 }

/-- The result is `none` when the head of the list makes the system stop, and
the address 0 when there is no free page. -/
def mmAllocatePhysicalPage (db : PipDatabase) : Option (PipDatabase × BitVec 32) :=
  match db.mmFirstFreePip with
  | none => some (db, 0)
  | some allocatedIndex =>
    if allocatedIndex ≥ total ∨ (db.pip allocatedIndex).state ≠ .free then none
    else some (activate db allocatedIndex, BitVec.ofNat 32 (allocatedIndex * 4096))

/-- Whether a page was freed decides if `MmFreePageEvent` is set. -/
def mmFreePhysicalPage (db : PipDatabase) (physicalAddress : BitVec 32) : PipDatabase × Bool :=
  let index := frameOf physicalAddress
  if physicalAddress.toNat % 4096 ≠ 0 then (db, false)
  else if index ≥ total then (db, false)
  else if (db.pip index).state ≠ .active then (db, false)
  else
    let entry := db.pip index
    let shareCount := if entry.shareCount > 0 then entry.shareCount - 1 else entry.shareCount
    let referenceCount :=
      if entry.referenceCount > 0 then entry.referenceCount - 1 else entry.referenceCount
    let db := db.setPip index { entry with shareCount, referenceCount }
    if referenceCount = 0 then
      (mmpInsertFreePageHead (db.setPip index { db.pip index with state := .free }) index, true)
    else (db, false)

/-- The first of `pageCount` free pages in a row, among the next pages. -/
def contiguousScan (db : PipDatabase) (pageCount : Nat) : Nat → Nat → Nat → Nat → Option Nat
  | 0, _, _, _ => none
  | left + 1, i, contiguousFound, startIndex =>
    if (db.pip i).state = .free then
      let startIndex := if contiguousFound = 0 then i else startIndex
      if contiguousFound + 1 = pageCount then some startIndex
      else contiguousScan db pageCount left (i + 1) (contiguousFound + 1) startIndex
    else contiguousScan db pageCount left (i + 1) 0 0xFFFFFFFF

def mmAllocateContiguousPhysicalPages (db : PipDatabase) (pageCount : BitVec 32) :
    PipDatabase × BitVec 32 :=
  if pageCount = 0 then (db, 0)
  else match contiguousScan db pageCount.toNat total 0 0 0xFFFFFFFF with
    | none => (db, 0)
    | some startIndex =>
      ((List.range' startIndex pageCount.toNat).foldl activate db,
        BitVec.ofNat 32 (startIndex * 4096))

/-- The zero page thread takes the first free page, or sleeps. -/
def takePage (db : PipDatabase) : PipDatabase × Option Nat :=
  match db.mmFirstFreePip with
  | none => (db, none)
  | some pageIndex =>
    let db := mmpUnlinkFreePage db pageIndex
    (db.setPip pageIndex { db.pip pageIndex with state := .active }, some pageIndex)

/-- The zero page thread hands the page over that it has cleared. -/
def storePage (db : PipDatabase) (pageIndex : Nat) : PipDatabase :=
  mmpInsertZeroedPageHead
    (db.setPip pageIndex { db.pip pageIndex with state := .zeroed }) pageIndex

end Model

/-- The database, the page that the zero page thread is clearing, the pages that
were allocated and not freed, and those that are locked, once for each lock. -/
structure FrameSystem where
  db : PipDatabase
  zeroing : Option Nat
  owned : List Nat
  locked : List Nat

inductive FrameAction where
  | allocate
  | allocateContiguous (pageCount : BitVec 32)
  | free (physicalAddress : BitVec 32)
  | reference (physicalAddress : BitVec 32)
  | dereference (physicalAddress : BitVec 32)
  | zero

def frameStep (total : Nat) (σ : FrameSystem) : FrameAction → Option FrameSystem
  | .allocate =>
    (mmAllocatePhysicalPage total σ.db).map fun (db, address) =>
      { σ with db, owned := if address = 0 then σ.owned else frameOf address :: σ.owned }
  | .allocateContiguous pageCount =>
    let (db, address) := mmAllocateContiguousPhysicalPages total σ.db pageCount
    some { σ with
      db
      owned := if address = 0 then σ.owned
        else List.range' (frameOf address) pageCount.toNat ++ σ.owned }
  | .free address => some { σ with
      db := (mmFreePhysicalPage total σ.db address).1
      owned := σ.owned.erase (frameOf address) }
  | .reference address => some { σ with
      db := mmReferencePhysicalPage total σ.db address
      locked := frameOf address :: σ.locked }
  | .dereference address => some { σ with
      db := mmDereferencePhysicalPage total σ.db address
      locked := σ.locked.erase (frameOf address) }
  | .zero =>
    match σ.zeroing with
    | none =>
      let (db, zeroing) := takePage σ.db
      some { σ with db, zeroing }
    | some pageIndex => some { σ with db := storePage σ.db pageIndex, zeroing := none }

end VeaOS.Mm
