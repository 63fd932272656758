import VeaOS.Foundation.FiniteWalk
import VeaOS.Vk.HiveBins

/-! Lookups in a hive that was loaded, by the kernel and by the loader. They follow
offsets of the file; a lookup is modelled for as many visits, and gives `outside`
when it comes to read a byte outside of the hive. -/
namespace VeaOS.Vk
open Foundation

/-- Where the kinds of nodes have their fields, and where a key has the first node of
the kind. -/
structure NodeLayout where
  signature : BitVec 16
  first : Nat
  next : Nat
  nameLength : Nat
  name : Nat

def directoryNode : NodeLayout := ⟨keyDirSig, 12, 16, 28, sizeofDirectoryNode⟩
def fileNode : NodeLayout := ⟨keyFileSig, 20, 6, 10, sizeofFileNode⟩
def keyFileInline : BitVec 16 := 1 <<< 3

/-- Cells of a hive, and which bytes are bytes of the hive. -/
structure CellSource where
  memory : Memory Nat
  cell : BitVec 32 → Option (Pointer Nat)
  holds : Pointer Nat → Nat → Bool

/-- The bytes that are read are bytes of the hive. -/
def CellSource.Inside (S : CellSource) (p : Pointer Nat) (n : Nat) : Prop := S.holds p n = true

instance (S : CellSource) (p : Pointer Nat) (n : Nat) : Decidable (S.Inside p n) :=
  inferInstanceAs (Decidable (_ = _))

inductive Lookup where
  | found (offset : BitVec 32) (node : Pointer Nat)
  | missing
  | outside

section Search
variable (S : CellSource) (layout : NodeLayout)

/-- Whether the characters are the same up to a zero; none when one outside is read. -/
def rtlRawStringCompareN (p : Pointer Nat) : List Byte → Option Bool
  | [] => some true
  | c :: rest =>
    if ¬ S.Inside p 1 then none
    else if S.memory p.block p.offset ≠ c ∨ c = 0 then some (S.memory p.block p.offset == c)
    else rtlRawStringCompareN (p.add 1) rest

def visitNode (name : List Byte) (currentOff : BitVec 32) : Lookup ⊕ BitVec 32 :=
  if currentOff = 0 then .inl .missing
  else
    match S.cell currentOff with
    | none => .inl .missing
    | some node =>
      if ¬ S.Inside (node.add 4) 2 then .inl .outside
      else if S.memory.read16 (node.add 4) ≠ layout.signature then .inl .missing
      else if ¬ S.Inside (node.add layout.nameLength) 2 then .inl .outside
      else
        let same :=
          if (S.memory.read16 (node.add layout.nameLength)).toNat = name.length then
            rtlRawStringCompareN S (node.add layout.name) name
          else some false
        match same with
        | none => .inl .outside
        | some true => .inl (.found currentOff node)
        | some false =>
          if ¬ S.Inside (node.add layout.next) 4 then .inl .outside
          else .inr (S.memory.read32 (node.add layout.next))

def findNode (parentNode : Pointer Nat) (name : List Byte) (visits : Nat) : Option Lookup :=
  if ¬ S.Inside (parentNode.add layout.first) 4 then some .outside
  else search (visitNode S layout name) visits (S.memory.read32 (parentNode.add layout.first))

end Search

section Kernel
variable (H : Hive)

def Hive.holds (p : Pointer Nat) (n : Nat) : Bool :=
  (H.stableBins.any fun bin => bin.binBase == p.block && p.offset + n ≤ bin.binSize.toNat) ||
    H.volatileBins.any fun bin => bin == p.block && p.offset + n ≤ vkBinSize.toNat

def kernelCells : CellSource := ⟨H.memory, vkpGetCellPointer H, H.holds⟩

def vkpFindSubkey (parentNode : Pointer Nat) (subkeyName : List Byte) (visits : Nat) : Option Lookup :=
  if subkeyName.length = 0 then some .missing
  else findNode (kernelCells H) directoryNode parentNode subkeyName visits

def vkpFindValueNode (keyNode : Pointer Nat) (valueName : List Byte) (visits : Nat) : Option Lookup :=
  if valueName.length = 0 then some .missing
  else findNode (kernelCells H) fileNode keyNode valueName visits

end Kernel

section Loader
variable (image : Nat → Byte) (hiveLength : BitVec 32)

def lvkGetCellPointer (cellOffset : BitVec 32) : Option (Pointer Nat) :=
  if cellOffset = 0 ∨ hiveLength ≤ cellOffset then none else some ⟨0, cellOffset.toNat⟩

def loaderCells : CellSource :=
  ⟨fun _ => image, lvkGetCellPointer hiveLength, fun p n => p.block == 0 && p.offset + n ≤ hiveLength.toNat⟩

def lvkInitializeLoaderParser : Bool :=
  let hive : Memory Unit := fun _ => image
  let field (offset : Nat) : Pointer Unit := ⟨(), offset⟩
  hiveLength != 0 && hive.read32 (field 0) == keyHeaderSig &&
    hive.read32 (field 4) == hive.read32 (field 8) && hive.read32 (field 0x1000) == keyBinSig &&
    hive.read16 (field (0x1000 + sizeofBaseBlock + 4)) == keyDirSig

def rawString (text : List Byte) : List Byte := text.takeWhile (· ≠ 0)

def lvkFindSubkey (parentNode : Pointer Nat) (subkeyName : List Byte) (visits : Nat) : Option Lookup :=
  findNode (loaderCells image hiveLength) directoryNode parentNode (rawString subkeyName) visits

def lvkFindValueNode (dirNode : Pointer Nat) (valueName : List Byte) (visits : Nat) : Option Lookup :=
  findNode (loaderCells image hiveLength) fileNode dirNode (rawString valueName) visits

inductive VkStatus where
  | success
  | invalidParameter
  | accessDenied
  | insufficientResources
  | objectNameNotFound
  | objectNameInvalid
  | objectPathInvalid
  | objectTypeMismatch
  | nameTooLong
  | bufferTooSmall

inductive Query where
  | answered (status : VkStatus) (type resultLength : Option (BitVec 32)) (data : List Byte)
  | outside

/-- The data of a value is in its node or in a cell. -/
def valueData (fileNode : Pointer Nat) : Option (Pointer Nat) :=
  let memory : Memory Nat := fun _ => image
  if memory.read16 (fileNode.add 24) &&& keyFileInline ≠ 0 ∨ memory.read32 (fileNode.add 16) ≤ 4 then
    some (fileNode.add 12)
  else (lvkGetCellPointer hiveLength (memory.read32 (fileNode.add 12))).map fun cellPtr => cellPtr.add 4

/-- What is copied out of a value; the size is none where there is no buffer. -/
def readValue (fileNode : Pointer Nat) (dataSize : Option (BitVec 32)) : Query :=
  let S := loaderCells image hiveLength
  if ¬ S.Inside fileNode sizeofFileNode then .outside
  else
    let type := some (S.memory.read32 (fileNode.add 20))
    let dataLength := S.memory.read32 (fileNode.add 16)
    match valueData image hiveLength fileNode with
    | none => .answered .objectTypeMismatch type (some dataLength) []
    | some data =>
      match dataSize with
      | none => .answered .success type (some dataLength) []
      | some dataSize =>
        if dataSize = 0 then .answered .success type (some dataLength) []
        else
          let bytesToCopy := if dataSize < dataLength then dataSize else dataLength
          if ¬ S.Inside data bytesToCopy.toNat then .outside
          else
            .answered (if dataSize < dataLength then .bufferTooSmall else .success) type (some dataLength)
              (S.memory.readBytes data bytesToCopy.toNat)

def answerOf (dataSize : Option (BitVec 32)) : Lookup → Query
  | .found _ fileNode => readValue image hiveLength fileNode dataSize
  | .missing => .answered .objectNameNotFound none none []
  | .outside => .outside

def lvkQueryValueKey (keyNode : Pointer Nat) (valueName : List Byte) (dataSize : Option (BitVec 32))
    (visits : Nat) : Option Query :=
  if lvkInitializeLoaderParser image hiveLength = false then some (.answered .invalidParameter none none [])
  else (lvkFindValueNode image hiveLength keyNode valueName visits).map (answerOf image hiveLength dataSize)

end Loader
end VeaOS.Vk
