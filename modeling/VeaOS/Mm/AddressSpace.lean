import VeaOS.Foundation.Runs
import VeaOS.Rtl.AvlCorrect

/-! The ranges of virtual addresses in use, one node of an AVL tree each. A node
is numbered in the order in which its memory was obtained; what the source takes
from the page tables and from a control area plays no part in the tree. -/
namespace VeaOS.Mm
open Foundation PointerTree Rtl

inductive VeaStatus where
  | success
  | invalidParameter
  | noMemory
  | insufficientResources
  | notMappedView
  | freeVmNotAtBase
  deriving DecidableEq, Repr

structure MmVad (Area : Type) where
  startingVpn : BitVec 32
  endingVpn : BitVec 32
  controlArea : Option Area
  protection : BitVec 32
  viewOffset : BitVec 32

def zeroVad (Area : Type) : MmVad Area := ⟨0, 0, none, 0, 0⟩

structure AddressSpace (Area : Type) where
  mmKernelVadTree : AvlTree Nat
  vad : Nat → MmVad Area
  mmVadFreeList : List Nat
  obtained : Nat

section Model
variable {Area : Type}

def pageSize : BitVec 32 := 0x1000
def startingKva : BitVec 32 := 0xC1000000
def kvaLimit : BitVec 32 := 0xFFC00000

def pageAlignDown (va : BitVec 32) : BitVec 32 := va &&& ~~~(pageSize - 1)
def pageRoundUp (size : BitVec 32) : BitVec 32 := (size + pageSize - 1) &&& ~~~(pageSize - 1)

namespace AddressSpace

def setVad (σ : AddressSpace Area) (node : Nat) (vad : MmVad Area) : AddressSpace Area :=
  { σ with vad := fun x => if x = node then vad else σ.vad x }

end AddressSpace

def mmInitializeVmm (Area : Type) : AddressSpace Area where
  mmKernelVadTree := ⟨fun _ _ => none, fun _ => none, fun _ => 0, none, none⟩
  vad _ := zeroVad Area
  mmVadFreeList := []
  obtained := 0

def mmpCompareVad (σ : AddressSpace Area) (nodeA nodeB : Nat) : Int :=
  if (σ.vad nodeA).startingVpn < (σ.vad nodeB).startingVpn then -1
  else if (σ.vad nodeA).startingVpn > (σ.vad nodeB).startingVpn then 1
  else 0

/-- A zeroed node. When the free list is empty, `available` new nodes are found:
one of the bootstrap pool, or those of a new page, or none. -/
def mmpAllocateVadNode (σ : AddressSpace Area) (available : Nat) : Option (AddressSpace Area × Nat) :=
  match σ.mmVadFreeList with
  | node :: rest => some ({ σ with mmVadFreeList := rest }.setVad node (zeroVad Area), node)
  | [] =>
    if available = 0 then none
    else some ({ σ with
      mmVadFreeList := (List.range' (σ.obtained + 1) (available - 1)).reverse
      obtained := σ.obtained + available }.setVad σ.obtained (zeroVad Area), σ.obtained)

def mmpFreeVadNode (σ : AddressSpace Area) (node : Nat) : AddressSpace Area :=
  { σ with mmVadFreeList := node :: σ.mmVadFreeList }.setVad node (zeroVad Area)

def mmpFindVadByVpn (σ : AddressSpace Area) (vpn : BitVec 32) : Nat → Option Nat → Option (Option Nat)
  | _, none => some none
  | 0, some _ => none
  | fuel + 1, some node =>
    if (σ.vad node).startingVpn ≤ vpn ∧ vpn ≤ (σ.vad node).endingVpn then some (some node)
    else if vpn < (σ.vad node).startingVpn then
      mmpFindVadByVpn σ vpn fuel (σ.mmKernelVadTree.child .left node)
    else mmpFindVadByVpn σ vpn fuel (σ.mmKernelVadTree.child .right node)

/-- The address of the first gap, 0 when there is none, and the page that was
reached. -/
def mmpFindFreeVirtualGap (fuel : Nat) (σ : AddressSpace Area) (pageCount : BitVec 32) :
    Nat → Option Nat → BitVec 32 → Option (BitVec 32 × BitVec 32)
  | _, none, lastVpnChecked => some (0, lastVpnChecked)
  | 0, some _, _ => none
  | steps + 1, some node, lastVpnChecked =>
    let gapPages := (σ.vad node).startingVpn - lastVpnChecked
    if gapPages ≥ pageCount then some (lastVpnChecked <<< 12, lastVpnChecked)
    else do
      let next ← rtlGetNextNodeAvl fuel σ.mmKernelVadTree node
      mmpFindFreeVirtualGap fuel σ pageCount steps next ((σ.vad node).endingVpn + 1)

def chooseVa (fuel : Nat) (σ : AddressSpace Area) (pageCount : BitVec 32) : Option (BitVec 32) :=
  match σ.mmKernelVadTree.root with
  | none => some startingKva
  | some _ => do
      let (allocatedVa, lastVpnChecked) ← mmpFindFreeVirtualGap fuel σ pageCount fuel
        σ.mmKernelVadTree.leftmost (startingKva >>> 12)
      return if allocatedVa = 0 then lastVpnChecked <<< 12 else allocatedVa

def insertVad (fuel : Nat) (σ : AddressSpace Area) (newVad : Nat) : Option (AddressSpace Area) := do
  let T ← rtlInsertElementAvl fuel (mmpCompareVad σ) σ.mmKernelVadTree newVad
  return { σ with mmKernelVadTree := T }

def mmAllocateVirtualRange (fuel : Nat) (σ : AddressSpace Area) (available : Nat)
    (pageCount : BitVec 32) : Option (AddressSpace Area × BitVec 32) :=
  match mmpAllocateVadNode σ available with
  | none => some (σ, 0)
  | some (σ, newVad) =>
    if pageCount = 0 ∨ pageCount > (kvaLimit - startingKva) / pageSize then
      some (mmpFreeVadNode σ newVad, 0)
    else do
      let allocatedVa ← chooseVa fuel σ pageCount
      if allocatedVa + pageCount * 4096 ≥ kvaLimit then return (mmpFreeVadNode σ newVad, 0)
      let σ ← insertVad fuel (σ.setVad newVad { σ.vad newVad with
        startingVpn := allocatedVa >>> 12
        endingVpn := (allocatedVa >>> 12) + pageCount - 1 }) newVad
      return (σ, allocatedVa)

/-- The node of a range is taken out of the tree and given back. -/
def removeVad (fuel : Nat) (σ : AddressSpace Area) (vad : Nat) : Option (AddressSpace Area) := do
  let T ← rtlDeleteElementAvl fuel σ.mmKernelVadTree vad
  return mmpFreeVadNode { σ with mmKernelVadTree := T } vad

/-- Whether a range was freed is only printed in the source. -/
def mmFreeVirtualRange (fuel : Nat) (σ : AddressSpace Area) (virtualAddress : BitVec 32) :
    Option (AddressSpace Area × Bool) := do
  let vpnTarget := virtualAddress >>> 12
  match ← mmpFindVadByVpn σ vpnTarget fuel σ.mmKernelVadTree.root with
  | none => return (σ, false)
  | some vadToFree =>
    if vpnTarget ≠ (σ.vad vadToFree).startingVpn then return (σ, false)
    return (← removeVad fuel σ vadToFree, true)

/-- The control area of the segment is `none` for a null pointer, as the segment
and the pointer to the base address themselves are. `pooled` says that the pool
has memory for a node. -/
def mmMapViewOfSegment (fuel : Nat) (σ : AddressSpace Area) (available : Nat) (pooled : Bool)
    (segment : Option (Option Area)) (baseAddress : Option (BitVec 32)) (viewSize : BitVec 32)
    (protect : BitVec 32) (viewOffset : BitVec 64) :
    Option (AddressSpace Area × VeaStatus × Option (BitVec 32)) :=
  match segment, baseAddress with
  | some controlArea, some base =>
    if viewSize = 0 then some (σ, .invalidParameter, baseAddress)
    else
      let pageCount := pageRoundUp viewSize >>> 12
      let targetVa := pageAlignDown base
      if targetVa = 0 then do
        let (σ, targetVa) ← mmAllocateVirtualRange fuel σ available pageCount
        if targetVa = 0 then return (σ, .noMemory, baseAddress)
        match ← mmpFindVadByVpn σ (targetVa >>> 12) fuel σ.mmKernelVadTree.root with
        | none => return (σ, .noMemory, baseAddress)
        | some vad =>
          return (σ.setVad vad { σ.vad vad with
            controlArea
            viewOffset := viewOffset.setWidth 32
            protection := protect }, .success, some targetVa)
      else if pooled = false then some (σ, .insufficientResources, baseAddress)
      else do
        let vad := σ.obtained
        let startingVpn := targetVa >>> 12
        let σ ← insertVad fuel ({ σ with obtained := σ.obtained + 1 }.setVad vad
          ⟨startingVpn, startingVpn + pageCount - 1, controlArea, protect, viewOffset.setWidth 32⟩) vad
        return (σ, .success, some targetVa)
  | _, _ => some (σ, .invalidParameter, baseAddress)

def mmUnmapViewOfSection (fuel : Nat) (σ : AddressSpace Area) (process : Bool)
    (baseAddress : BitVec 32) : Option (AddressSpace Area × VeaStatus) := do
  if process = false ∨ baseAddress = 0 then return (σ, .invalidParameter)
  let vpnTarget := pageAlignDown baseAddress >>> 12
  match ← mmpFindVadByVpn σ vpnTarget fuel σ.mmKernelVadTree.root with
  | none => return (σ, .notMappedView)
  | some vad =>
    if (σ.vad vad).startingVpn ≠ vpnTarget then return (σ, .freeVmNotAtBase)
    return (← removeVad fuel σ vad, .success)

inductive VmCall (Area : Type) where
  | allocateRange (available : Nat) (pageCount : BitVec 32)
  | freeRange (virtualAddress : BitVec 32)
  | mapView (available : Nat) (pooled : Bool) (segment : Option (Option Area))
      (baseAddress : Option (BitVec 32)) (viewSize protect : BitVec 32) (viewOffset : BitVec 64)
  | unmapView (process : Bool) (baseAddress : BitVec 32)

/-- One call on the address space, and whether it succeeded. -/
def vmCall (fuel : Nat) (σ : AddressSpace Area) : VmCall Area → Option (AddressSpace Area × Bool)
  | .allocateRange available pageCount =>
    (mmAllocateVirtualRange fuel σ available pageCount).map fun (σ, va) => (σ, va != 0)
  | .freeRange virtualAddress => mmFreeVirtualRange fuel σ virtualAddress
  | .mapView available pooled segment baseAddress viewSize protect viewOffset =>
    (mmMapViewOfSegment fuel σ available pooled segment baseAddress viewSize protect
      viewOffset).map fun (σ, status, _) => (σ, status == .success)
  | .unmapView process baseAddress =>
    (mmUnmapViewOfSection fuel σ process baseAddress).map fun (σ, status) => (σ, status == .success)

end Model
end VeaOS.Mm
