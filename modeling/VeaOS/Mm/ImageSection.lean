import VeaOS.Rtl.ElfFile

/-! The section of an image file: the segments that its headers describe, in
their order, and the size of the image. What the driver of the file answers to
a read, and whether the pool has room, are given from outside. -/
namespace VeaOS.Elf
open Foundation

/-- What the driver of a file answers to a read of a length at an offset. -/
abbrev FileReader := Nat → Nat → Option (List Byte)

/-- Whether the pool gives the table that is read and the segments. -/
structure PoolAnswers where
  table : Bool
  segments : Bool

def alignUpBy (size align : BitVec 32) : BitVec 32 := (size + align - 1) &&& ~~~(align - 1)

def imagePageSize : BitVec 32 := 0x1000

/-- A read of whole sectors, of which no more than `length` bytes are taken. -/
def miSimpleReadFile (file : FileReader) (byteOffset length : Nat) : Option (List Byte) :=
  if length = 0 then
    none
  else
    (file byteOffset ((length + 511) / 512 * 512)).map (·.take length)

structure MmSectionSegment where
  virtualAddress : BitVec 32
  fileOffset : BitVec 64
  length : BitVec 64
  rawLength : BitVec 64
  protection : BitVec 32
  deriving DecidableEq, Repr

structure ImageSectionObject where
  segments : List MmSectionSegment
  nrSegments : BitVec 32
  imageFileSize : BitVec 32
  transferAddress : BitVec 32
  machine : BitVec 16
  deriving DecidableEq, Repr

section Relocatable

def isAllocated (shdr : Elf32Shdr) : Bool := shdr.shFlags &&& shfAlloc != 0

/-- The sections that have bytes in the file. -/
def isFileBacked (shdr : Elf32Shdr) : Bool := shdr.shType != shtNull && shdr.shType != shtNobits

def imageSizeLimit : BitVec 32 := 16 * 1024 * 1024

def raiseSectionEnd (highest : BitVec 32) (shdr : Elf32Shdr) : BitVec 32 :=
  if isFileBacked shdr then
    let secEnd := shdr.shOffset + shdr.shSize
    if secEnd > highest ∧ secEnd < imageSizeLimit then secEnd else highest
  else
    highest

def maxSectionEndOffset (shdrTable : List Elf32Shdr) : BitVec 32 := shdrTable.foldl raiseSectionEnd 0

def countSegments {Record : Type} (counted : Record → Bool) (table : List Record) : BitVec 32 :=
  table.foldl (fun count record => if counted record then count + 1 else count) 0

def sectionSegment (shdr : Elf32Shdr) : MmSectionSegment where
  virtualAddress := shdr.shOffset
  fileOffset := shdr.shOffset.setWidth 64
  length := (alignUpBy shdr.shSize imagePageSize).setWidth 64
  rawLength := if shdr.shType ≠ shtNobits then shdr.shSize.setWidth 64 else 0
  protection := rtlElfShFlagsToVeaProtection shdr.shFlags

/-- A relocatable driver: the segments, their number and the size of the image. -/
def relocatableSegments (file : FileReader) (pool : PoolAnswers) (elfHeader : Elf32Ehdr) :
    Except VeaStatus (List MmSectionSegment × BitVec 32 × BitVec 32) := do
  let shdrTableSize := elfHeader.eShnum.toNat * sizeofElf32Shdr
  if !pool.table then
    throw .insufficientResources
  let some bytes := miSimpleReadFile file elfHeader.eShoff.toNat shdrTableSize
    | throw .invalidImageFormat
  if bytes.length < shdrTableSize then
    throw .invalidImageFormat
  let shdrTable := tableOf Elf32Shdr.ofBytes sizeofElf32Shdr elfHeader.eShnum.toNat bytes
  let nrSegments := countSegments isAllocated shdrTable
  let highest := maxSectionEndOffset shdrTable
  let shdrEnd := elfHeader.eShoff + BitVec.ofNat 32 shdrTableSize
  let highest := if shdrEnd > highest then shdrEnd else highest
  if nrSegments > 0 then
    if !pool.segments then
      throw .insufficientResources
    return ((shdrTable.filter isAllocated).map sectionSegment, nrSegments, highest)
  return ([], nrSegments, 0)

end Relocatable

section Loadable

def isLoaded (phdr : Elf32Phdr) : Bool := phdr.pType == ptLoad

def programSegment (phdr : Elf32Phdr) : MmSectionSegment where
  virtualAddress := phdr.pVaddr
  fileOffset := phdr.pOffset.setWidth 64
  length := (alignUpBy phdr.pMemsz imagePageSize).setWidth 64
  rawLength := phdr.pFilesz.setWidth 64
  protection := rtlElfShFlagsToVeaProtection
    ((if phdr.pFlags &&& pfX ≠ 0 then shfExecinstr else 0) |||
      (if phdr.pFlags &&& pfW ≠ 0 then shfWrite else 0))

def maxProgramEnd (phdrTable : List Elf32Phdr) : BitVec 32 :=
  phdrTable.foldl (fun highest phdr =>
    let endVa := phdr.pVaddr + phdr.pMemsz
    if isLoaded phdr ∧ endVa > highest then endVa else highest) 0

def loadableSegments (file : FileReader) (pool : PoolAnswers) (elfHeader : Elf32Ehdr) :
    Except VeaStatus (List MmSectionSegment × BitVec 32 × BitVec 32) := do
  let phdrTableSize := elfHeader.ePhnum.toNat * sizeofElf32Phdr
  if !pool.table then
    throw .insufficientResources
  let some bytes := miSimpleReadFile file elfHeader.ePhoff.toNat phdrTableSize
    | throw .invalidImageFormat
  if bytes.length < phdrTableSize then
    throw .invalidImageFormat
  let phdrTable := tableOf Elf32Phdr.ofBytes sizeofElf32Phdr elfHeader.ePhnum.toNat bytes
  let nrSegments := countSegments isLoaded phdrTable
  if nrSegments > 0 then
    if !pool.segments then
      throw .insufficientResources
    return ((phdrTable.filter isLoaded).map programSegment, nrSegments, maxProgramEnd phdrTable)
  return ([], nrSegments, 0)

end Loadable

def readElfHeader (file : FileReader) : Except VeaStatus Elf32Ehdr := do
  let some bytes := miSimpleReadFile file 0 sizeofElf32Ehdr
    | throw .invalidImageFormat
  if bytes.length < sizeofElf32Ehdr then
    throw .invalidImageFormat
  let elfHeader := Elf32Ehdr.ofBytes bytes
  if !rtlValidateElfHeader elfHeader then
    throw .invalidImageFormat
  return elfHeader

def elfFmtCreateImageSection (file : FileReader) (pool : PoolAnswers) :
    Except VeaStatus ImageSectionObject := do
  let elfHeader ← readElfHeader file
  let (segments, nrSegments, imageSize) ←
    if elfHeader.eType = etRel then
      relocatableSegments file pool elfHeader
    else
      loadableSegments file pool elfHeader
  if imageSize = 0 ∨ nrSegments = 0 then
    throw .invalidImageFormat
  return {
    segments
    nrSegments
    imageFileSize := alignUpBy imageSize imagePageSize
    transferAddress := elfHeader.eEntry
    machine := elfHeader.eMachine }

end VeaOS.Elf
