import VeaOS.Foundation.ByteMemory

/-! The records of a 32-bit ELF file as its readers take them from the bytes,
and what a header has to say before a file is looked at further. -/
namespace VeaOS.Elf
open Foundation

inductive VeaStatus where
  | success
  | invalidParameter
  | invalidImageFormat
  | insufficientResources
  | procedureNotFound
  | accessViolation
  | notSupported
  deriving DecidableEq, Repr

section Constants

def elfMag : List Byte := [0x7F, 0x45, 0x4C, 0x46]
def elfClass32 : Byte := 1
def elfData2Lsb : Byte := 1

def etRel : BitVec 16 := 1
def etExec : BitVec 16 := 2
def etDyn : BitVec 16 := 3

def ptLoad : BitVec 32 := 1
def pfX : BitVec 32 := 1
def pfW : BitVec 32 := 2

def shtNull : BitVec 32 := 0
def shtNobits : BitVec 32 := 8
def shtRel : BitVec 32 := 9

def shfWrite : BitVec 32 := 1
def shfAlloc : BitVec 32 := 2
def shfExecinstr : BitVec 32 := 4

def sizeofElf32Ehdr : Nat := 52
def sizeofElf32Phdr : Nat := 32
def sizeofElf32Shdr : Nat := 40
def sizeofElf32Rel : Nat := 8
def sizeofElf32Sym : Nat := 16

end Constants

section Fields
variable (bytes : List Byte) (offset : Nat)

/-- The `USHORT` at an offset in a record. -/
def ushortAt : BitVec 16 := BitVec.ofNat 16 (ofLittleEndian ((bytes.drop offset).take 2))

def ulongAt : BitVec 32 := BitVec.ofNat 32 (ofLittleEndian ((bytes.drop offset).take 4))

end Fields

structure Elf32Ehdr where
  eIdent : List Byte
  eType : BitVec 16
  eMachine : BitVec 16
  eEntry : BitVec 32
  ePhoff : BitVec 32
  eShoff : BitVec 32
  ePhnum : BitVec 16
  eShnum : BitVec 16
  deriving DecidableEq, Repr

def Elf32Ehdr.ofBytes (bytes : List Byte) : Elf32Ehdr where
  eIdent := bytes.take 16
  eType := ushortAt bytes 16
  eMachine := ushortAt bytes 18
  eEntry := ulongAt bytes 24
  ePhoff := ulongAt bytes 28
  eShoff := ulongAt bytes 32
  ePhnum := ushortAt bytes 44
  eShnum := ushortAt bytes 48

structure Elf32Phdr where
  pType : BitVec 32
  pOffset : BitVec 32
  pVaddr : BitVec 32
  pFilesz : BitVec 32
  pMemsz : BitVec 32
  pFlags : BitVec 32
  deriving DecidableEq, Repr

def Elf32Phdr.ofBytes (bytes : List Byte) : Elf32Phdr where
  pType := ulongAt bytes 0
  pOffset := ulongAt bytes 4
  pVaddr := ulongAt bytes 8
  pFilesz := ulongAt bytes 16
  pMemsz := ulongAt bytes 20
  pFlags := ulongAt bytes 24

structure Elf32Shdr where
  shType : BitVec 32
  shFlags : BitVec 32
  shOffset : BitVec 32
  shSize : BitVec 32
  deriving DecidableEq, Repr

def Elf32Shdr.ofBytes (bytes : List Byte) : Elf32Shdr where
  shType := ulongAt bytes 4
  shFlags := ulongAt bytes 8
  shOffset := ulongAt bytes 16
  shSize := ulongAt bytes 20

/-- The records of a table that was read as a whole. -/
def tableOf {Record : Type} (ofBytes : List Byte → Record) (size count : Nat) (bytes : List Byte) :
    List Record :=
  (List.range count).map fun i => ofBytes (bytes.drop (i * size))

/-- `RtlValidateElfHeader`, of a header that was read in full. -/
def rtlValidateElfHeader (header : Elf32Ehdr) : Bool :=
  header.eIdent.take 4 == elfMag &&
  header.eIdent[4]? == some elfClass32 && header.eIdent[5]? == some elfData2Lsb &&
  if header.eType = etRel then
    !(header.eShoff == 0 || header.eShnum == 0)
  else if header.eType = etExec ∨ header.eType = etDyn then
    !(header.ePhoff == 0 || header.ePhnum == 0)
  else
    false

def pageReadonly : BitVec 32 := 0x02
def pageReadwrite : BitVec 32 := 0x04
def pageExecuteRead : BitVec 32 := 0x20
def pageExecuteReadwrite : BitVec 32 := 0x40

def rtlElfShFlagsToVeaProtection (shFlags : BitVec 32) : BitVec 32 :=
  if shFlags &&& shfExecinstr ≠ 0 ∧ shFlags &&& shfWrite ≠ 0 then
    pageExecuteReadwrite
  else if shFlags &&& shfExecinstr ≠ 0 then
    pageExecuteRead
  else if shFlags &&& shfWrite ≠ 0 then
    pageReadwrite
  else
    pageReadonly

end VeaOS.Elf
