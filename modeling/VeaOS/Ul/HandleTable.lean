import VeaOS.Foundation.IndexChain
import Mathlib.Data.BitVec

/-! The handle table: an array of entries whose free ones are linked by index,
and the lookup of a handle in the table of a process or of the kernel. -/
namespace VeaOS.Ul

abbrev Handle := BitVec 32
abbrev AccessMask := BitVec 32

inductive VeaStatus where
  | success
  | invalidParameter
  | invalidHandle
  | objectTypeMismatch
  | accessDenied
  deriving DecidableEq, Repr

inductive KProcessorMode where
  | kernelMode
  | userMode
  deriving DecidableEq, Repr

structure HandleTableEntry (Obj Thread : Type) where
  object : Option Obj
  grantedAccess : AccessMask
  nextFreeIndex : Nat
  ownerThread : Option Thread

structure HandleTable (Obj Thread : Type) where
  entries : Nat → HandleTableEntry Obj Thread
  maxEntries : Nat
  handleCount : BitVec 32
  firstFreeIndex : Nat

def handleToIndex (handle : Handle) : Nat := (handle >>> 2).toNat
def indexToHandle (index : Nat) : Handle := BitVec.ofNat 32 index <<< 2

def kernelHandleFlag : Handle := 0x80000000

def obpIsKernelHandle (handle : Handle) (mode : KProcessorMode) : Bool :=
  handle &&& kernelHandleFlag ≠ 0 && mode = .kernelMode

def obKernelHandleToHandle (handle : Handle) : Handle := handle &&& ~~~kernelHandleFlag

variable {Obj Thread : Type}

/-- The two flags say which of the two pool allocations succeed. -/
def ulCreateHandleTable (initialCapacity : Nat) (tableAllocated entriesAllocated : Bool) :
    Option (HandleTable Obj Thread) :=
  if initialCapacity < 2 then none
  else if !tableAllocated then none
  else if !entriesAllocated then none
  else some
    { entries := fun i =>
        { object := none
          grantedAccess := 0
          nextFreeIndex :=
            if 1 ≤ i ∧ i < initialCapacity then (if i = initialCapacity - 1 then 0 else i + 1) else 0
          ownerThread := none }
      maxEntries := initialCapacity
      handleCount := 0
      firstFreeIndex := 1 }

/-- The table afterwards and the new handle, `0` for `NULL`. -/
def ulCreateHandle (T : HandleTable Obj Thread) (object : Option Obj) (grantedAccess : AccessMask)
    (thread : Thread) : HandleTable Obj Thread × Handle :=
  if object.isNone then (T, 0)
  else if T.firstFreeIndex = 0 then (T, 0)
  else
    let newIndex := T.firstFreeIndex
    ({ T with
        entries := Function.update T.entries newIndex
          { object := object
            grantedAccess := grantedAccess
            nextFreeIndex := 0
            ownerThread := some thread }
        firstFreeIndex := (T.entries newIndex).nextFreeIndex
        handleCount := T.handleCount + 1 },
      indexToHandle newIndex)

/-- The table afterwards, the status, and the object whose reference the handle
held, which the source hands to `ObDereferenceObject` once the lock is released. -/
def ulDestroyHandle (T : HandleTable Obj Thread) (handle : Handle) :
    HandleTable Obj Thread × VeaStatus × Option Obj :=
  if handle = 0 then (T, .invalidParameter, none)
  else
    let index := handleToIndex handle
    if index = 0 ∨ T.maxEntries ≤ index then (T, .invalidHandle, none)
    else match (T.entries index).object with
      | none => (T, .invalidHandle, none)
      | some object =>
        ({ T with
            entries := Function.update T.entries index
              { object := none
                grantedAccess := 0
                nextFreeIndex := T.firstFreeIndex
                ownerThread := none }
            firstFreeIndex := index
            handleCount := T.handleCount - 1 },
          .success, some object)

/-- The table a handle is looked up in, and the handle without the kernel's flag. -/
def obpGetHandleTable (kernel : HandleTable Obj Thread) (process : Option (HandleTable Obj Thread))
    (handle : Handle) (mode : KProcessorMode) : Option (HandleTable Obj Thread) × Handle :=
  if obpIsKernelHandle handle mode then (some kernel, obKernelHandleToHandle handle)
  else (process, handle)

/-- A lookup reads the tables only. `typeOf` is the type in an object's header. -/
def obReferenceObjectByHandle {Ty : Type} [DecidableEq Ty] (typeOf : Obj → Ty)
    (kernel : HandleTable Obj Thread) (process : Option (HandleTable Obj Thread))
    (handle : Handle) (desiredAccess : AccessMask) (expectedType : Option Ty)
    (accessMode : KProcessorMode) : VeaStatus × Option Obj :=
  if handle = 0 then (.invalidParameter, none)
  else match obpGetHandleTable kernel process handle accessMode with
    | (none, _) => (.invalidHandle, none)
    | (some table, handle) =>
      let index := handleToIndex handle
      if index = 0 ∨ table.maxEntries ≤ index then (.invalidHandle, none)
      else
        let entry := table.entries index
        match entry.object with
        | none => (.invalidHandle, none)
        | some foundObject =>
          if ∃ type ∈ expectedType, typeOf foundObject ≠ type then (.objectTypeMismatch, none)
          else if accessMode = .userMode ∧ entry.grantedAccess &&& desiredAccess ≠ desiredAccess then
            (.accessDenied, none)
          else (.success, some foundObject)

end VeaOS.Ul
