import Mathlib.Data.BitVec
import VeaOS.Foundation.ProbeTable

/-! The table of the big pages: the pool allocations that have pages of their own.
How the pages are mapped is left to the page allocator, which hands out a range
and takes it back; the statistics for each tag are left out. -/
namespace VeaOS.Mm
open Foundation

inductive PoolType where
  | nonPagedPool
  | pagedPool
  | maxPoolType
  deriving DecidableEq

structure BigPage where
  va : BitVec 32
  key : BitVec 32
  numberOfPages : BitVec 32
  numberOfBytes : BitVec 32
  poolType : PoolType
  deriving DecidableEq

structure PoolTotals where
  totalBigPages : BitVec 32
  totalBytesMapped : BitVec 32
  totalBytesAllocated : BitVec 32

/-- `pages` are the ranges that the page allocator has handed out for big pages. -/
structure BigPool where
  ulBigPageTable : Fin 1024 → BigPage
  ulpBigPageTableCount : BitVec 32
  ulPoolVector : PoolType → PoolTotals
  pages : List (BitVec 32 × BitVec 32)

def poolMaxBlocks : BitVec 32 := 512
def sizeofPoolHeader : BitVec 32 := 8
def bigPageTombstone : BitVec 32 := 0xFFFFFFFF

def ulpComputeHashForVa (va : BitVec 32) : Fin 1024 :=
  ⟨((va >>> 12) &&& 1023).toNat, by
    rw [BitVec.toNat_and]
    exact Nat.lt_of_le_of_lt Nat.and_le_right (by decide)⟩

/-- A request that the small blocks of a page are too small for. -/
def isBigRequest (numberOfBytes : BitVec 32) : Bool :=
  poolMaxBlocks ≤ ((numberOfBytes + sizeofPoolHeader + 7) &&& ~~~7) >>> 3

/-- The loop for a slot that is empty or was freed. -/
def bigPageRoom (table : Fin 1024 → BigPage) (va : BitVec 32) : Option (Fin 1024) :=
  Probe.probe (fun i => (table i).va == 0 || (table i).va == bigPageTombstone) 1024 (ulpComputeHashForVa va)

/-- The loop for the slot of a block, which ends before an empty one. -/
def bigPageOf (table : Fin 1024 → BigPage) (p : BitVec 32) : Option (Fin 1024) :=
  Probe.search (fun i => (table i).va == p) (fun i => (table i).va == 0) 1024 (ulpComputeHashForVa p)

namespace BigPool

def mmAllocatePoolPages (σ : BigPool) (va numberOfPages : BitVec 32) : BigPool :=
  { σ with pages := (va, numberOfPages) :: σ.pages }

def mmFreePoolPages (σ : BigPool) (va numberOfPages : BitVec 32) : BigPool :=
  { σ with pages := σ.pages.erase (va, numberOfPages) }

def track (σ : BigPool) (i : Fin 1024) (entry : BigPage) (count : BitVec 32) : BigPool :=
  { σ with
    ulBigPageTable := Function.update σ.ulBigPageTable i entry
    ulpBigPageTableCount := count }

def account (σ : BigPool) (poolType : PoolType) (f : PoolTotals → PoolTotals) : BigPool :=
  { σ with ulPoolVector := Function.update σ.ulPoolVector poolType (f (σ.ulPoolVector poolType)) }

end BigPool

/-- A big request; `va` is what the page allocator answers. -/
def ulAllocatePoolWithTag (σ : BigPool) (poolType : PoolType) (numberOfBytes tag : BitVec 32)
    (va : Option (BitVec 32)) : BigPool × Option (BitVec 32) :=
  if poolType = .maxPoolType ∨ 0xFFFFFFFF - sizeofPoolHeader - 7 < numberOfBytes then (σ, none)
  else
    let numberOfPages := (numberOfBytes - 1) / 4096 + 1
    match va with
    | none => (σ, none)
    | some va =>
      let σ := σ.mmAllocatePoolPages va numberOfPages
      match bigPageRoom σ.ulBigPageTable va with
      | none => (σ.mmFreePoolPages va numberOfPages, none)
      | some currentIndex =>
        let σ := σ.track currentIndex ⟨va, tag, numberOfPages, numberOfBytes, poolType⟩
          (σ.ulpBigPageTableCount + 1)
        let σ := σ.account poolType fun totals => {
          totalBigPages := totals.totalBigPages + numberOfPages
          totalBytesMapped := totals.totalBytesMapped + numberOfPages * 4096
          totalBytesAllocated := totals.totalBytesAllocated + numberOfBytes }
        (σ, some va)

/-- A pointer at the start of a page is freed; `none` when the system stops. -/
def ulFreePoolWithTag (σ : BigPool) (p tag : BitVec 32) : Option BigPool :=
  match bigPageOf σ.ulBigPageTable p with
  | none => none
  | some currentIndex =>
    let entry := σ.ulBigPageTable currentIndex
    if tag ≠ 0 ∧ entry.key ≠ tag then none
    else if entry.poolType = .maxPoolType ∨ entry.numberOfPages = 0 then none
    else
      let σ := σ.track currentIndex ⟨bigPageTombstone, 0, 0, 0, .nonPagedPool⟩ (σ.ulpBigPageTableCount - 1)
      let σ := σ.account entry.poolType fun totals => {
        totalBigPages := totals.totalBigPages - entry.numberOfPages
        totalBytesMapped := totals.totalBytesMapped - entry.numberOfPages * 4096
        totalBytesAllocated := totals.totalBytesAllocated - entry.numberOfBytes }
      some (σ.mmFreePoolPages p entry.numberOfPages)

end VeaOS.Mm
