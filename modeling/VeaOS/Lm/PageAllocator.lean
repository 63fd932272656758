import Mathlib.Data.List.Basic

/-! The page allocator of the loader: the descriptors of the firmware's memory map, from the
top of which pages are cut, and the pages and page tables that are mapped with them. -/
namespace VeaOS.Lm

def pageSize : Nat := 4096

/-- A range of memory; a base and a length have 64 bits each. -/
structure Descriptor where
  baseAddress : Nat
  length : Nat
  type : Nat
  deriving DecidableEq

inductive ExtendedType where
  | loaderGood
  | loaderOccupied
  | loaderOldMemory
  | loaderAcpiNVS
  | loaderAcpiReclaimableMemory
  deriving DecidableEq

structure DescriptorEx extends Descriptor where
  extendedType : ExtendedType
  deriving DecidableEq

inductive BootPoolType where
  | ldrReclaimablePool
  | ldrUnreclaimablePool
  | ldrReservedHardwarePool

/-- A range that was handed out, at the address that the caller was told. -/
structure Allocation where
  address : Nat
  size : Nat
  extendedType : ExtendedType
  deriving DecidableEq

structure PageEntry where
  frame : Nat
  cacheDisable : Bool
  deriving DecidableEq

/-- `log` lists the ranges handed out and `installed` the frames put into the page directory,
the last first. -/
structure Loader where
  extendedMap : List DescriptorEx
  directory : Nat → Option Nat
  pageTables : Nat → Nat → Option PageEntry
  nextPoolVirtAddress : Nat
  log : List Allocation
  installed : List Nat

inductive LoaderCall where
  | allocatePhysicalPages (pageCount : Nat)
  | allocatePhysicalPagesEx (poolType : BootPoolType) (pageCount : Nat)
  | mapVirtualMemory (virtualAddr physicalAddr pageCount : Nat)
  | allocatePool (poolType : BootPoolType) (byteSize : Nat)

/-- What the firmware reports of a range becomes. -/
def extendedTypeOf : Nat → ExtendedType
  | 1 => .loaderGood
  | 3 => .loaderAcpiReclaimableMemory
  | 4 => .loaderAcpiNVS
  | _ => .loaderOldMemory

/-- The type of a descriptor for a range of a pool, and what it becomes. -/
def BootPoolType.types : BootPoolType → Nat × ExtendedType
  | .ldrReclaimablePool => (1, .loaderOldMemory)
  | .ldrUnreclaimablePool => (2, .loaderOccupied)
  | .ldrReservedHardwarePool => (2, .loaderAcpiNVS)

def lmExtendedMap (firmware : List Descriptor) : List DescriptorEx :=
  firmware.map fun d => { d with extendedType := extendedTypeOf d.type }

def DescriptorEx.fits (size : Nat) (d : DescriptorEx) : Bool :=
  d.extendedType = .loaderGood && size ≤ d.length && 0x100000 ≤ d.baseAddress

/-- The last of the first descriptors that has room for a size. -/
def lastFitting (size : Nat) (map : List DescriptorEx) : Nat → Option (Nat × DescriptorEx)
  | 0 => none
  | i + 1 =>
    match map[i]? with
    | some d => if d.fits size then some (i, d) else lastFitting size map i
    | none => lastFitting size map i

namespace Loader
variable (σ : Loader)

/-- The pages are cut from the top of a descriptor; a map without room for one more restarts
the machine. The address of the pages has 64 bits, the one returned 32. -/
def allocate (type : Nat) (extendedType : ExtendedType) (pageCount : Nat) : Option (Nat × Loader) :=
  if pageCount = 0 then some (0, σ)
  else
    let allocSize := pageCount * pageSize
    match lastFitting allocSize σ.extendedMap σ.extendedMap.length with
    | none => some (0, σ)
    | some (i, d) =>
      let allocatedAddr := (d.baseAddress + d.length - allocSize) % 18446744073709551616
      if σ.extendedMap.length < 128 then
        some (allocatedAddr % 4294967296, { σ with
          extendedMap := σ.extendedMap.set i { d with length := d.length - allocSize } ++
            [⟨⟨allocatedAddr, allocSize, type⟩, extendedType⟩]
          log := ⟨allocatedAddr % 4294967296, allocSize, extendedType⟩ :: σ.log })
      else none

def lmAllocatePhysicalPages (pageCount : Nat) : Option (Nat × Loader) := σ.allocate 1 .loaderOccupied pageCount

def lmAllocatePhysicalPagesEx (poolType : BootPoolType) (pageCount : Nat) : Option (Nat × Loader) :=
  σ.allocate poolType.types.1 poolType.types.2 pageCount

/-- The page table for an address, which is taken from the allocator if it is missing. -/
def ensureTable (index : Nat) : Option Loader :=
  match σ.directory index with
  | some _ => some σ
  | none => (σ.lmAllocatePhysicalPages 1).map fun (address, τ) =>
    { τ with
      directory := Function.update τ.directory index (some (address / pageSize))
      pageTables := Function.update τ.pageTables index fun _ => none
      installed := address / pageSize :: τ.installed }

def mapPage (virtualAddr physicalAddr : Nat) : Option Loader :=
  (σ.ensureTable (virtualAddr / 4194304)).map fun τ =>
    { τ with
      pageTables := Function.update τ.pageTables (virtualAddr / 4194304)
        (Function.update (τ.pageTables (virtualAddr / 4194304)) (virtualAddr / 4096 % 1024)
          (some ⟨physicalAddr / 4096, decide (physicalAddr ≥ 0xF0000000)⟩)) }

/-- The pages from one on, `count` of them. -/
def mapPages (virtualAddr physicalAddr : Nat) : (page count : Nat) → Loader → Option Loader
  | _, 0, σ => some σ
  | page, count + 1, σ =>
    (σ.mapPage ((virtualAddr + page * pageSize) % 4294967296) ((physicalAddr + page * pageSize) % 4294967296)).bind
      (mapPages virtualAddr physicalAddr (page + 1) count)

def lmMapVirtualMemory (virtualAddr physicalAddr pageCount : Nat) : Option Loader :=
  mapPages virtualAddr physicalAddr 0 pageCount σ

def poolPages (byteSize : Nat) : Nat := (byteSize + (pageSize - 1)) % 4294967296 / pageSize

def lmAllocatePool (poolType : BootPoolType) (byteSize : Nat) : Option (Nat × Loader) :=
  if byteSize = 0 then some (0, σ)
  else
    (σ.lmAllocatePhysicalPagesEx poolType (poolPages byteSize)).bind fun (physAddr, τ) =>
      if physAddr = 0 then some (0, τ)
      else
        (lmMapVirtualMemory { τ with
            nextPoolVirtAddress := (τ.nextPoolVirtAddress + poolPages byteSize * pageSize) % 4294967296 }
          τ.nextPoolVirtAddress physAddr (poolPages byteSize)).map (τ.nextPoolVirtAddress, ·)

def step : LoaderCall → Option Loader
  | .allocatePhysicalPages pageCount => (σ.lmAllocatePhysicalPages pageCount).map (·.2)
  | .allocatePhysicalPagesEx poolType pageCount => (σ.lmAllocatePhysicalPagesEx poolType pageCount).map (·.2)
  | .mapVirtualMemory virtualAddr physicalAddr pageCount => σ.lmMapVirtualMemory virtualAddr physicalAddr pageCount
  | .allocatePool poolType byteSize => (σ.lmAllocatePool poolType byteSize).map (·.2)

end Loader

/-- The loader with the map of the firmware and what is mapped already. -/
def lmInitMemoryManager (firmware : List Descriptor) (directory : Nat → Option Nat)
    (pageTables : Nat → Nat → Option PageEntry) : Loader where
  extendedMap := lmExtendedMap firmware
  directory := directory
  pageTables := pageTables
  nextPoolVirtAddress := 0xD0000000
  log := []
  installed := []

end VeaOS.Lm
