import Mathlib.Data.BitVec

/-! Memory descriptor lists: the frames of the pages that a buffer spans. A
partial list describes a part of the buffer of another one, with its frames. -/
namespace VeaOS.Ob

def pageSize : Nat := 4096

def sizeofMdl : Nat := 28

def sizeofPfnNumber : Nat := 4

def mdlSourceIsNonpagedPool : BitVec 16 := 0x0004

def mdlPartial : BitVec 16 := 0x0010

structure Mdl where
  next : BitVec 32
  size : BitVec 16
  mdlFlags : BitVec 16
  process : BitVec 32
  mappedSystemVa : BitVec 32
  startVa : Nat
  byteCount : Nat
  byteOffset : Nat
  pfnArray : Nat → BitVec 32

inductive MdlStatus where
  | success
  | invalidParameter
  deriving DecidableEq, Repr

/-- The entries of the page tables, by the 4 MiB and by the pages that they are for. -/
structure PageTables where
  pde : Nat → BitVec 32
  pte : Nat → BitVec 32

def obioGetPageFrame (tables : PageTables) (va : BitVec 32) : Option (BitVec 32) :=
  let pde := tables.pde (va.toNat / 0x400000)
  let pte := tables.pte (va.toNat / 0x1000)
  if pde &&& 1 = 0 then none
  else if pde &&& 0x80 ≠ 0 then some ((pde &&& 0xFFC00000 ||| va &&& 0x003FF000) >>> 12)
  else if pte &&& 1 = 0 then none
  else some (pte >>> 12)

/-- `PAGE_ALIGN`. -/
def pageAlign (va : Nat) : Nat := va - va % pageSize

/-- `ADDRESS_AND_SIZE_TO_SPAN_PAGES`; the sum has 32 bits. -/
def addressAndSizeToSpanPages (va size : Nat) : Nat :=
  (va % pageSize + size + (pageSize - 1)) % 0x100000000 / pageSize

/-- The loop over the pages, from an address on. -/
def mdlFrames (tables : PageTables) : Nat → BitVec 32 → Option (List (BitVec 32))
  | 0, _ => some []
  | count + 1, pageAddress => do
      let frame ← obioGetPageFrame tables pageAddress
      let rest ← mdlFrames tables count (pageAddress + 0x1000)
      return frame :: rest

/-- `ObioAllocateMdl`, for a packet that has a list already or not, with memory or without. -/
def obioAllocateMdl (tables : PageTables) (virtualAddress length : BitVec 32) (oipHasMdl allocated : Bool) :
    Option Mdl :=
  let address := virtualAddress.toNat
  let pageCount := addressAndSizeToSpanPages address length.toNat
  let mdlSize := sizeofMdl + pageCount * sizeofPfnNumber
  if length = 0 ∨ virtualAddress = 0 ∨ 0xFFFFFFFF - (length.toNat - 1) < address then none
  else if oipHasMdl then none
  else if pageCount = 0 ∨ (0xFFFF - sizeofMdl) / sizeofPfnNumber < pageCount then none
  else if !allocated then none
  else do
    let frames ← mdlFrames tables pageCount (BitVec.ofNat 32 (pageAlign address))
    return {
      next := 0
      size := BitVec.ofNat 16 mdlSize
      mdlFlags := 0
      process := 0
      mappedSystemVa := 0
      startVa := pageAlign address
      byteCount := length.toNat
      byteOffset := address % pageSize
      pfnArray := fun i => frames.getD i 0 }

/-- `ObioBuildPartialMdl`, of two lists that are the same one or not. -/
def obioBuildPartialMdl (sourceMdl targetMdl : Option Mdl) (same : Bool) (virtualAddress length : BitVec 32) :
    MdlStatus × Option Mdl :=
  match sourceMdl, targetMdl with
  | some source, some target =>
    let targetStart := virtualAddress.toNat
    let sourceStart := source.startVa + source.byteOffset
    let sourceEnd := sourceStart + source.byteCount
    let targetEnd := targetStart + length.toNat
    let targetPageCount := addressAndSizeToSpanPages targetStart length.toNat
    let sourcePageCount := (source.size.toNat - sizeofMdl) / sizeofPfnNumber
    let sourcePageIndex := (pageAlign targetStart - source.startVa) / pageSize
    if same ∨ virtualAddress = 0 ∨ length = 0 ∨ 0xFFFFFFFF - (length.toNat - 1) < targetStart then
      (.invalidParameter, targetMdl)
    else if source.size.toNat < sizeofMdl ∨ pageSize ≤ source.byteOffset ∨ source.byteCount = 0 then
      (.invalidParameter, targetMdl)
    else if 0x100000000 < sourceEnd ∨ 0x100000000 < targetEnd ∨ targetStart < sourceStart ∨
        sourceEnd < targetEnd then
      (.invalidParameter, targetMdl)
    else if targetPageCount = 0 ∨
        target.size.toNat < (sizeofMdl + targetPageCount * sizeofPfnNumber) % 0x100000000 then
      (.invalidParameter, targetMdl)
    else if sourcePageCount < sourcePageIndex ∨ sourcePageCount - sourcePageIndex < targetPageCount then
      (.invalidParameter, targetMdl)
    else
      (.success, some { target with
        next := 0
        mdlFlags := mdlPartial ||| source.mdlFlags &&& mdlSourceIsNonpagedPool
        process := source.process
        mappedSystemVa := 0
        startVa := pageAlign targetStart
        byteOffset := targetStart % pageSize
        byteCount := length.toNat
        pfnArray := fun i =>
          if i < targetPageCount then source.pfnArray (sourcePageIndex + i) else target.pfnArray i })
  | _, _ => (.invalidParameter, targetMdl)

section Built

inductive Built : Mdl → Prop where
  | allocated {mdl : Mdl} (tables : PageTables) (virtualAddress length : BitVec 32)
      (oipHasMdl allocated : Bool) :
      obioAllocateMdl tables virtualAddress length oipHasMdl allocated = some mdl → Built mdl
  | partialOf {source target mdl : Mdl} (virtualAddress length : BitVec 32) :
      Built source →
      obioBuildPartialMdl (some source) (some target) false virtualAddress length = (.success, some mdl) →
      Built mdl

/-- The list describes bytes of the address space, and has room for the pages that they span. -/
structure Mdl.Whole (mdl : Mdl) : Prop where
  aligned : mdl.startVa % pageSize = 0
  offset : mdl.byteOffset < pageSize
  bytes : 0 < mdl.byteCount
  inside : mdl.startVa + mdl.byteOffset + mdl.byteCount ≤ 0x100000000
  room : sizeofMdl + (mdl.byteOffset + mdl.byteCount + (pageSize - 1)) / pageSize * sizeofPfnNumber ≤
    mdl.size.toNat

/-- The frame and the place in it of a byte of the buffer. -/
def Mdl.maps (mdl : Mdl) (va : Nat) : BitVec 32 × Nat :=
  (mdl.pfnArray ((va - mdl.startVa) / pageSize), (va - mdl.startVa) % pageSize)

/-- The pages that some bytes have a part in. -/
def pagesSpanned (va length : Nat) : Nat := (va + length - 1) / pageSize - va / pageSize + 1

end Built

end VeaOS.Ob
