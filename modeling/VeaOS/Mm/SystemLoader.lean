import VeaOS.Rtl.ElfRelocation

/-! The loading of a driver into the system space. The ranges of the tree are a list with
the newest first; where the search for a gap puts a new one is an answer, as is what the
files, the sections and the pools say. -/
namespace VeaOS.Mm.Loader
open Foundation Elf

abbrev Status := BitVec 32

def veaSuccess (status : Status) : Bool := !status.msb

def statusSuccess : Status := 0
def statusAccessViolation : Status := 0xC0000005
def statusInvalidParameter : Status := 0xC000000D
def statusNoMemory : Status := 0xC0000017
def statusProcedureNotFound : Status := 0xC000007A
def statusInvalidImageFormat : Status := 0xC000007B
def statusInsufficientResources : Status := 0xC000009A
def statusNotSupported : Status := 0xC00000BB

def statusOf : Elf.VeaStatus → Status
  | .success => statusSuccess
  | .invalidParameter => statusInvalidParameter
  | .invalidImageFormat => statusInvalidImageFormat
  | .insufficientResources => statusInsufficientResources
  | .procedureNotFound => statusProcedureNotFound
  | .accessViolation => statusAccessViolation
  | .notSupported => statusNotSupported

def kvaSize : BitVec 32 := 0xFFC00000 - 0xC1000000

structure ModuleEntry where
  filePath : List Byte
  imageBase : BitVec 32
  imageSize : BitVec 32
  entryPoint : BitVec 32
  flags : BitVec 32
  deriving DecidableEq

structure SystemSpace where
  ptLoadedModuleList : List ModuleEntry
  /-- The first and the last page of each range. -/
  ranges : List (BitVec 32 × BitVec 32)
  /-- The frame of each page that is mapped for a driver. -/
  pte : BitVec 32 → Option (BitVec 32)
  memory : Memory Unit

/-- A range that is asked for: whether there is a node for it, and where it would be put. -/
structure Gap where
  node : Bool
  place : BitVec 32

/-- The section of the file: its size, that of the file, and its bytes. -/
structure ImageSection where
  sizeOfSection : BitVec 32
  imageFileSize : BitVec 32
  bytes : Nat → Byte

structure Answers where
  buffer : Bool
  /-- What `Status` holds before it is set. -/
  unsetStatus : Status
  openFile : Status
  createSection : Status
  referenceSection : Status
  image : ImageSection
  view : Gap
  driver : Gap
  /-- The pages of physical memory, 0 for none. -/
  page : Nat → BitVec 32
  /-- Whether the pool has the memory for an entry, and for its name. -/
  entry : Bool
  name : Bool

structure LoadCall where
  fileName : List Byte
  loadedName : Option (List Byte)
  flags : BitVec 32
  /-- Whether the caller asks for the entry, and for the base. -/
  moduleObject : Bool
  imageBaseAddress : Bool

/-- The entry is given by its place in the list. -/
structure LoadResult where
  space : SystemSpace
  status : Status
  moduleObject : Option Nat
  imageBaseAddress : Option (BitVec 32)

section Strings

def rtlToUpperChar (c : Byte) : Byte := if 0x61 ≤ c ∧ c ≤ 0x7A then c - 32 else c

def rtlEqualString (string₁ string₂ : List Byte) : Bool :=
  string₁.map rtlToUpperChar == string₂.map rtlToUpperChar

/-- What follows the last slash of a path that starts with one. -/
def baseName (fileName : List Byte) : List Byte :=
  if fileName.head? = some 0x2F then (fileName.reverse.takeWhile (· ≠ 0x2F)).reverse else fileName

end Strings

section Ranges

/-- No range is inserted for the asked pages. -/
def Gap.refuses (gap : Gap) (pageCount : BitVec 32) : Bool :=
  !gap.node || pageCount == 0 || pageCount > kvaSize / 0x1000 || gap.place + pageCount * 4096 ≥ 0xFFC00000

def mmAllocateVirtualRange (σ : SystemSpace) (gap : Gap) (pageCount : BitVec 32) : SystemSpace × BitVec 32 :=
  if gap.refuses pageCount then (σ, 0)
  else ({ σ with ranges := (gap.place >>> 12, (gap.place >>> 12) + pageCount - 1) :: σ.ranges }, gap.place)

def pageCountOf (size : BitVec 32) : BitVec 32 := (size + 0xFFF) >>> 12

def ImageSection.viewSize (image : ImageSection) : BitVec 32 :=
  if image.imageFileSize = 0 then image.sizeOfSection else image.imageFileSize

def mmMapViewOfSection (σ : SystemSpace) (image : ImageSection) (gap : Gap) :
    SystemSpace × Status × BitVec 32 :=
  if image.viewSize = 0 then (σ, statusInvalidParameter, 0)
  else
    let (σ, targetVa) := mmAllocateVirtualRange σ gap (pageCountOf image.viewSize)
    (σ, if targetVa = 0 then statusNoMemory else statusSuccess, targetVa)

/-- Whether a view was found is only printed by the loader. -/
def mmUnmapViewOfSection (σ : SystemSpace) (baseAddress : BitVec 32) : SystemSpace :=
  match σ.ranges.find? fun range => range.1 ≤ baseAddress >>> 12 && baseAddress >>> 12 ≤ range.2 with
  | none => σ
  | some range => if range.1 ≠ baseAddress >>> 12 then σ else { σ with ranges := σ.ranges.erase range }

end Ranges

section Image
variable (fuel : Nat) (kernelExport : List Byte → BitVec 32)

/-- The loop over the pages, which ends when there is no more memory. -/
def mapPages (page : Nat → BitVec 32) : Nat → Nat → BitVec 32 → (BitVec 32 → Option (BitVec 32)) →
    (BitVec 32 → Option (BitVec 32)) × Bool
  | 0, _, _, pte => (pte, true)
  | left + 1, i, currentVa, pte =>
    if page i = 0 then (pte, false)
    else mapPages page left (i + 1) (currentVa + 4096) fun vpn =>
      if vpn = currentVa >>> 12 then some (page i >>> 12) else pte vpn

def copyBytes (m : Memory Unit) (base : BitVec 32) (size : BitVec 32) (bytes : Nat → Byte) : Memory Unit :=
  fun _ x => if base.toNat ≤ x ∧ x < base.toNat + size.toNat then bytes (x - base.toNat) else m () x

def miLoadImageSection (σ : SystemSpace) (answers : Answers) : SystemSpace × Status × BitVec 32 :=
  let image := answers.image
  let (σ, status, tempBase) := mmMapViewOfSection σ image answers.view
  if !veaSuccess status then (σ, status, 0)
  else if image.sizeOfSection = 0 then (mmUnmapViewOfSection σ tempBase, statusInvalidImageFormat, 0)
  else
    let pageCount := pageCountOf image.sizeOfSection
    let (σ, driverBase) := mmAllocateVirtualRange σ answers.driver pageCount
    if driverBase = 0 then (mmUnmapViewOfSection σ tempBase, statusInsufficientResources, 0)
    else
      let (pte, complete) := mapPages answers.page pageCount.toNat 0 driverBase σ.pte
      if !complete then (mmUnmapViewOfSection { σ with pte } tempBase, statusNoMemory, 0)
      else
        let memory := copyBytes σ.memory driverBase image.sizeOfSection image.bytes
        (mmUnmapViewOfSection { σ with pte, memory } tempBase, statusSuccess, driverBase)

def headerAt (m : Memory Unit) (base : BitVec 32) : Elf32Ehdr :=
  .ofBytes ((List.range 52).map fun i => m () (base.toNat + i))

/-- `none` when the name of a symbol does not end within `fuel` bytes. -/
def ldrRelocateImage (m : Memory Unit) (baseAddress : BitVec 32) : Option (Memory Unit × Status) :=
  if baseAddress = 0 then some (m, statusInvalidParameter)
  else if !rtlValidateElfHeader (headerAt m baseAddress) then some (m, statusInvalidImageFormat)
  else (rtlApplyElfRelocations (fun _ => true) fuel baseAddress baseAddress (some kernelExport) m).map
    fun (m, status) => (m, statusOf status)

/-- The entry point of a relocatable image lies in its first executable section. -/
def entryOffset (m : Memory Unit) (base : BitVec 32) : BitVec 32 :=
  let elfHeader := headerAt m base
  if elfHeader.eType = etRel then
    let shdr := fun i => base + elfHeader.eShoff + BitVec.ofNat 32 i * 40
    let executable := (List.range elfHeader.eShnum.toNat).find? fun i =>
      m.read32 (address (shdr i + 8)) &&& shfExecinstr != 0
    elfHeader.eEntry + executable.elim 0 fun i => m.read32 (address (shdr i + 16))
  else elfHeader.eEntry

/-- What `MmLoadSystemImage` compares with the names in the list. -/
def LoadCall.searched (call : LoadCall) : List Byte := call.loadedName.getD (baseName call.fileName)

def mmLoadSystemImage (σ : SystemSpace) (call : LoadCall) (answers : Answers) : Option LoadResult :=
  let quickie := fun (σ : SystemSpace) status => some ⟨σ, status, none, none⟩
  if !answers.buffer then quickie σ statusInsufficientResources
  else if σ.ptLoadedModuleList.any fun entry => rtlEqualString call.searched entry.filePath then
    quickie σ answers.unsetStatus
  else if !veaSuccess answers.openFile then quickie σ answers.openFile
  else if !veaSuccess answers.createSection then quickie σ answers.createSection
  else if !veaSuccess answers.referenceSection then quickie σ answers.referenceSection
  else if call.flags ≠ 0 then quickie σ answers.referenceSection
  else
    let (σ, status, loadedModuleBase) := miLoadImageSection σ answers
    if !veaSuccess status then quickie σ status
    else do
      let (memory, status) ← ldrRelocateImage fuel kernelExport σ.memory loadedModuleBase
      let σ := { σ with memory }
      if !veaSuccess status then quickie σ status
      else if !answers.entry then quickie σ statusInsufficientResources
      else
        let moduleEntry : ModuleEntry := {
          filePath := if answers.name then call.fileName else []
          imageBase := loadedModuleBase
          imageSize := answers.image.imageFileSize
          entryPoint := loadedModuleBase + entryOffset memory loadedModuleBase
          flags := 3 }
        some {
          space := { σ with ptLoadedModuleList := σ.ptLoadedModuleList ++ [moduleEntry] }
          status := statusSuccess
          moduleObject := if call.moduleObject then some σ.ptLoadedModuleList.length else none
          imageBaseAddress := if call.imageBaseAddress then some loadedModuleBase else none }

end Image
end VeaOS.Mm.Loader
