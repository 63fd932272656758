import VeaOS.Rtl.ElfFile

/-! The relocation of an ELF image in memory. Addresses have 32 bits, and what is read is
what the memory holds then; an access to a byte that may not be touched ends the run. -/
namespace VeaOS.Elf
open Foundation

section Constants

def shnUndef : BitVec 16 := 0
def shnAbs : BitVec 16 := 0xFFF1
def r38632 : BitVec 8 := 1
def r386Pc32 : BitVec 8 := 2

end Constants

def address (a : BitVec 32) : Pointer Unit := ⟨(), a.toNat⟩

section Accesses
variable (inside : Nat → Bool)

/-- The bytes from an address on may be touched. -/
def mayTouch (a : BitVec 32) (n : Nat) : Bool := (List.range n).all fun i => inside (a.toNat + i)

def load16 (m : Memory Unit) (a : BitVec 32) : Option (BitVec 16) :=
  if mayTouch inside a 2 then some (m.read16 (address a)) else none

def load32 (m : Memory Unit) (a : BitVec 32) : Option (BitVec 32) :=
  if mayTouch inside a 4 then some (m.read32 (address a)) else none

/-- The string at an address, without its terminator. -/
def cString (m : Memory Unit) : Nat → BitVec 32 → Option (List Byte)
  | 0, _ => none
  | fuel + 1, a =>
    if inside a.toNat then
      if m () a.toNat = 0 then some []
      else (cString m fuel (a + 1)).map (m () a.toNat :: ·)
    else none

end Accesses

/-- What the loop over a relocation section finds out before it starts. -/
structure RelocTables where
  targetSectionBase : BitVec 32
  symTable : BitVec 32
  strTabShdr : BitVec 32
  strTable : BitVec 32
  relTable : BitVec 32
  relCount : BitVec 32

section Model
variable (inside : Nat → Bool) (fuel : Nat) (header imageBase : BitVec 32)
  (kernelResolver : Option (List Byte → BitVec 32)) (shdrBase : BitVec 32)

def sectionHeader (m : Memory Unit) (index : BitVec 32) : Option (BitVec 32) := do
  let shentsize ← load16 inside m (header + 46)
  return shdrBase + index * shentsize.setWidth 32

/-- The tables of a relocation section, or the status with which the function returns. -/
def relocTables (m : Memory Unit) (relShdr : BitVec 32) : Option (Except VeaStatus RelocTables) := do
  let shInfo ← load32 inside m (relShdr + 28)
  let shLink ← load32 inside m (relShdr + 24)
  let shnum ← load16 inside m (header + 48)
  if shInfo.toNat ≥ shnum.toNat ∨ shLink.toNat ≥ shnum.toNat then return .error .invalidImageFormat
  let targetShdr ← sectionHeader inside header shdrBase m shInfo
  let eType ← load16 inside m (header + 16)
  let targetOffset ← load32 inside m (targetShdr + if eType = etRel then 16 else 12)
  let symTabShdr ← sectionHeader inside header shdrBase m shLink
  let strIndex ← load32 inside m (symTabShdr + 24)
  if strIndex.toNat ≥ shnum.toNat then return .error .invalidImageFormat
  let strTabShdr ← sectionHeader inside header shdrBase m strIndex
  let symOffset ← load32 inside m (symTabShdr + 16)
  let strOffset ← load32 inside m (strTabShdr + 16)
  if header + symOffset < 0xC0000000 ∨ header + strOffset < 0xC0000000 then return .error .invalidImageFormat
  let relOffset ← load32 inside m (relShdr + 16)
  let relSize ← load32 inside m (relShdr + 20)
  return .ok ⟨imageBase + targetOffset, header + symOffset, strTabShdr, header + strOffset,
    header + relOffset, relSize / 8⟩

def symValue (m : Memory Unit) (tables : RelocTables) (sym : BitVec 32) :
    Option (Except VeaStatus (BitVec 32)) := do
  let shndx ← load16 inside m (sym + 14)
  if shndx = shnUndef then
    let stName ← load32 inside m sym
    let strSize ← load32 inside m (tables.strTabShdr + 20)
    if stName ≥ strSize then return .error .invalidImageFormat
    match kernelResolver with
    | none => return .error .procedureNotFound
    | some resolver =>
      let name ← cString inside m fuel (tables.strTable + stName)
      return if resolver name = 0 then .error .procedureNotFound else .ok (resolver name)
  else if shndx = shnAbs then
    let stValue ← load32 inside m (sym + 4)
    return .ok stValue
  else
    let shnum ← load16 inside m (header + 48)
    if shndx ≥ shnum then return .error .invalidImageFormat
    let eType ← load16 inside m (header + 16)
    if eType = etRel then
      let symDefShdr ← sectionHeader inside header shdrBase m (shndx.setWidth 32)
      let defOffset ← load32 inside m (symDefShdr + 16)
      let stValue ← load32 inside m (sym + 4)
      return .ok (imageBase + defOffset + stValue)
    else
      let stValue ← load32 inside m (sym + 4)
      return .ok (imageBase + stValue)

/-- The body of the loop over the entries of a relocation section. -/
def applyRelocation (tables : RelocTables) (j : Nat) (m : Memory Unit) : Option (Memory Unit × VeaStatus) := do
  let rel := tables.relTable + BitVec.ofNat 32 j * 8
  let rInfo ← load32 inside m (rel + 4)
  match ← symValue inside fuel header imageBase kernelResolver shdrBase m tables
      (tables.symTable + (rInfo >>> 8) * 16) with
  | .error status => return (m, status)
  | .ok value =>
    let rOffset ← load32 inside m rel
    let patchAddr := tables.targetSectionBase + rOffset
    if patchAddr < 0xC0000000 then return (m, .accessViolation)
    let relType : BitVec 8 := rInfo.setWidth 8
    if relType = r38632 then
      let old ← load32 inside m patchAddr
      return (m.write32 (address patchAddr) (old + value), .success)
    else if relType = r386Pc32 then
      let old ← load32 inside m patchAddr
      return (m.write32 (address patchAddr) (old + (value - patchAddr)), .success)
    else return (m, .notSupported)

/-- A loop that ends with the first status that is not success. -/
def untilFailure (step : Nat → Memory Unit → Option (Memory Unit × VeaStatus)) :
    List Nat → Memory Unit → Option (Memory Unit × VeaStatus)
  | [], m => some (m, .success)
  | j :: rest, m => do
      let (m, status) ← step j m
      if status = .success then untilFailure step rest m else return (m, status)

def applySection (i : Nat) (m : Memory Unit) : Option (Memory Unit × VeaStatus) := do
  let relShdr ← sectionHeader inside header shdrBase m (BitVec.ofNat 32 i)
  let shType ← load32 inside m (relShdr + 4)
  if shType ≠ shtRel then return (m, .success)
  match ← relocTables inside header imageBase shdrBase m relShdr with
  | .error status => return (m, status)
  | .ok tables =>
    untilFailure (applyRelocation inside fuel header imageBase kernelResolver shdrBase tables)
      (List.range tables.relCount.toNat) m

/-- The loop over the sections, which reads their number anew each time. -/
def applySections : Nat → Nat → Memory Unit → Option (Memory Unit × VeaStatus)
  | 0, _, _ => none
  | steps + 1, i, m => do
      let shnum ← load16 inside m (header + 48)
      if i < shnum.toNat then
        let (m, status) ← applySection inside fuel header imageBase kernelResolver shdrBase i m
        if status = .success then applySections steps (i + 1) m else return (m, status)
      else return (m, .success)

end Model

/-- Names may be read up to `fuel` bytes; the section count has 16 bits. -/
def rtlApplyElfRelocations (inside : Nat → Bool) (fuel : Nat) (header imageBase : BitVec 32)
    (kernelResolver : Option (List Byte → BitVec 32)) (m : Memory Unit) : Option (Memory Unit × VeaStatus) :=
  if header = 0 ∨ imageBase = 0 then some (m, .invalidParameter)
  else do
    let shoff ← load32 inside m (header + 32)
    applySections inside fuel header imageBase kernelResolver (header + shoff) 0x10000 0 m

end VeaOS.Elf
