import VeaOS.Fat.Mount

/-! The scan of a disk for partitions. The table is read from the sectors of the
disk into buffers of the size of a sector, and every entry in use becomes a device. -/
namespace VeaOS.Pm
open Foundation
open Fat (field)

inductive PmStatus where
  | success
  | insufficientResources
  | invalidParameter
  | invalidDeviceRequest
  | diskCorruptError
  | failed (status : BitVec 32)
  deriving DecidableEq, Repr

inductive PmPartitionStyle where
  | masterBootRecord
  | guidPartitionTable
  deriving DecidableEq, Repr

structure PmPartitionEntry where
  startingOffset : BitVec 64
  partitionLength : BitVec 64
  partitionStyle : PmPartitionStyle
  hiddenSectors : BitVec 32
  deriving DecidableEq, Repr

inductive PartitionInfo where
  | mbr (partitionType bootIndicator : Byte)
  | gpt (partitionTypeGuid partitionIdGuid : List Byte) (attributes : BitVec 64) (partitionName : List Byte)
  deriving DecidableEq, Repr

structure PmDeviceExtension (Object : Type) where
  lowerDeviceObject : Object
  harddiskNum : BitVec 32
  partitionNum : BitVec 32
  bytesPerSector : BitVec 32
  startingOffset : BitVec 64
  partitionLength : BitVec 64
  partitionStyle : PmPartitionStyle
  info : PartitionInfo
  deriving DecidableEq, Repr

/-- The extension of the filter above a disk, with the devices of its partitions. -/
structure PmDisk (Object : Type) where
  lowerDeviceObject : Object
  harddiskNum : BitVec 32
  bytesPerSector : BitVec 32
  partitionList : List (PmDeviceExtension Object)
  partitionCount : BitVec 32
  deriving DecidableEq, Repr

/-- What a scan asks of others: the bytes of the disk and the read requests that fail, the two
buffers, and the devices that cannot be created, by the entry they are for. -/
structure ScanWorld where
  bytes : Nat → Byte
  refuses : BitVec 64 → BitVec 32 → Option (BitVec 32)
  headerAllocated : Bool
  entriesAllocated : Bool
  deviceRefused : Nat → Option (BitVec 32)

/-- How a scan ends. An overrun is a read outside of a buffer. -/
inductive ScanOutcome (Object : Type) where
  | returned (status : PmStatus) (disk : PmDisk Object)
  | overrun
  deriving DecidableEq, Repr

section Memory

/-- `RtlCompareMemory`, against a pattern: how many bytes are the same, or nothing when the
comparison leaves the buffer. -/
def rtlCompareMemory : List Byte → List Byte → Option Nat
  | _, [] => some 0
  | [], _ :: _ => none
  | byte :: buffer, wanted :: pattern =>
    if byte = wanted then (rtlCompareMemory buffer pattern).map (· + 1) else some 0

theorem rtlCompareMemory_long (long : pattern.length ≤ buffer.length) :
    ∃ n, rtlCompareMemory buffer pattern = some n ∧
      (n = pattern.length ↔ buffer.take pattern.length = pattern) := by
  induction buffer, pattern using rtlCompareMemory.induct with
  | case1 buffer => exact ⟨0, by rw [rtlCompareMemory], by simp⟩
  | case2 => exact absurd long (Nat.not_succ_le_zero _)
  | case3 buffer wanted pattern ih =>
    obtain ⟨n, compared, all⟩ := ih (Nat.le_of_succ_le_succ long)
    refine ⟨n + 1, by rw [rtlCompareMemory, if_pos rfl, compared, Option.map_some], ?_⟩
    rw [List.length_cons, List.take_succ_cons, List.cons.injEq, ← all]
    exact ⟨fun same => ⟨rfl, Nat.succ.inj same⟩, fun same => congrArg Nat.succ same.2⟩
  | case4 byte buffer wanted pattern differ =>
    refine ⟨0, by rw [rtlCompareMemory, if_neg differ], ?_⟩
    rw [List.length_cons, List.take_succ_cons, List.cons.injEq]
    exact ⟨fun same => absurd same.symm (Nat.succ_ne_zero _), fun same => absurd same.1 differ⟩

theorem rtlCompareMemory_whole (compared : rtlCompareMemory buffer pattern = some pattern.length) :
    pattern.length ≤ buffer.length := by
  induction buffer, pattern using rtlCompareMemory.induct with
  | case1 buffer => exact Nat.zero_le _
  | case2 => cases compared
  | case3 buffer wanted pattern ih =>
    rw [rtlCompareMemory, if_pos rfl, Option.map_eq_some_iff] at compared
    obtain ⟨m, compared, same⟩ := compared
    rw [List.length_cons] at same
    exact Nat.succ_le_succ (ih (compared.trans (congrArg some (Nat.succ.inj same))))
  | case4 byte buffer wanted pattern differ =>
    rw [rtlCompareMemory, if_neg differ, List.length_cons] at compared
    exact absurd (Option.some.inj compared).symm (Nat.succ_ne_zero _)

end Memory

section Devices
variable {Object : Type}

def bytesOf (sectors : BitVec 64) (sectorSize : BitVec 32) : BitVec 64 := sectors * sectorSize.setWidth 64

def ScanWorld.diskBytes (world : ScanWorld) (start count : Nat) : List Byte :=
  (List.range count).map fun i => world.bytes (start + i)

def pmpReadSectors (world : ScanWorld) (disk : PmDisk Object) (startLba : BitVec 64) (sectorCount : BitVec 32) :
    Except PmStatus (List Byte) :=
  let length := sectorCount * disk.bytesPerSector
  let offset := bytesOf startLba disk.bytesPerSector
  if disk.bytesPerSector = 0 ∨ sectorCount = 0 then .error .invalidParameter
  else match world.refuses offset length with
    | some status => .error (.failed status)
    | none => .ok (world.diskBytes offset.toNat length.toNat)

/-- The device of an entry; it goes to the end of the disk's list. -/
def partitionDevice (disk : PmDisk Object) (entry : PmPartitionEntry) (partitionNum : BitVec 32)
    (info : PartitionInfo) : PmDeviceExtension Object where
  lowerDeviceObject := disk.lowerDeviceObject
  harddiskNum := disk.harddiskNum
  partitionNum := partitionNum
  bytesPerSector := disk.bytesPerSector
  startingOffset := entry.startingOffset
  partitionLength := entry.partitionLength
  partitionStyle := entry.partitionStyle
  info := info

def pmpCreatePartitionDevice (refused : Option (BitVec 32)) (disk : PmDisk Object) (entry : PmPartitionEntry)
    (partitionNum : BitVec 32) (info : PartitionInfo) : PmStatus × PmDisk Object :=
  match refused with
  | some status => (.failed status, disk)
  | none => (.success, { disk with
      partitionList := disk.partitionList ++ [partitionDevice disk entry partitionNum info]
      partitionCount := disk.partitionCount + 1 })

end Devices

section Gpt
variable {Object : Type}

/-- `"EFI PART"`. -/
def gptSignature : List Byte := [0x45, 0x46, 0x49, 0x20, 0x50, 0x41, 0x52, 0x54]

def guidNull : List Byte := List.replicate 16 0

def gptHeaderLba : BitVec 64 := 1

structure GptHeader where
  partitionEntryLba : BitVec 64
  numberOfPartitionEntries : BitVec 32
  sizeOfPartitionEntry : BitVec 32
  deriving DecidableEq, Repr

def gptHeader (bytes : List Byte) : GptHeader where
  partitionEntryLba := field 64 bytes 72
  numberOfPartitionEntries := field 32 bytes 80
  sizeOfPartitionEntry := field 32 bytes 84

/-- The entry of a partition, as the loop makes it from a record. -/
def gptPartitionEntry (sectorSize : BitVec 32) (record : List Byte) : PmPartitionEntry :=
  let startingLba := field 64 record 32
  let endingLba := field 64 record 40
  { startingOffset := bytesOf startingLba sectorSize
    partitionLength := bytesOf (endingLba - startingLba + 1) sectorSize
    partitionStyle := .guidPartitionTable
    hiddenSectors := startingLba.setWidth 32 }

def gptInfo (record : List Byte) : PartitionInfo :=
  .gpt (record.take 16) ((record.drop 16).take 16) (field 64 record 48) ((record.drop 56).take 72)

/-- One turn of the loop of `PmpCreateGptPartitionPdo`, at the record at the place of the entry.
The range is read up to the 48th byte; a device takes the whole record of 128 bytes. -/
def gptEntryStep (world : ScanWorld) (record : List Byte) (i : Nat) (partitionNum : BitVec 32)
    (disk : PmDisk Object) : Option (BitVec 32 × PmDisk Object) :=
  match rtlCompareMemory record guidNull with
  | none => none
  | some 16 => some (partitionNum, disk)
  | some _ =>
    if record.length < 48 then none
    else if world.deviceRefused i = none ∧ record.length < 128 then none
    else match pmpCreatePartitionDevice (world.deviceRefused i) disk
        (gptPartitionEntry disk.bytesPerSector record) partitionNum (gptInfo record) with
      | (.success, disk) => some (partitionNum + 1, disk)
      | (_, disk) => some (partitionNum, disk)

/-- The loop, with the entries that are left. The place of an entry has 32 bits. -/
def gptEntryLoop (world : ScanWorld) (entries : List Byte) (size : BitVec 32) :
    Nat → Nat → BitVec 32 → PmDisk Object → ScanOutcome Object
  | 0, _, _, disk => .returned .success disk
  | left + 1, i, partitionNum, disk =>
    match gptEntryStep world (entries.drop (BitVec.ofNat 32 i * size).toNat) i partitionNum disk with
    | none => .overrun
    | some (partitionNum, disk) => gptEntryLoop world entries size left (i + 1) partitionNum disk

/-- The array of the entries, read into a buffer of whole sectors. -/
def gptReadEntries (world : ScanWorld) (disk : PmDisk Object) (header : GptHeader) :
    Except PmStatus (List Byte) :=
  let entriesByteSize := header.numberOfPartitionEntries * header.sizeOfPartitionEntry
  let entriesSectorCount := (entriesByteSize + disk.bytesPerSector - 1) / disk.bytesPerSector
  if world.entriesAllocated then pmpReadSectors world disk header.partitionEntryLba entriesSectorCount
  else .error .insufficientResources

def gptReadHeader (world : ScanWorld) (disk : PmDisk Object) : Except PmStatus (List Byte) :=
  if world.headerAllocated then pmpReadSectors world disk gptHeaderLba 1 else .error .insufficientResources

/-- The rest of the call, behind the header. -/
def gptScanEntries (world : ScanWorld) (disk : PmDisk Object) (header : GptHeader) : ScanOutcome Object :=
  if header.numberOfPartitionEntries * header.sizeOfPartitionEntry = 0 then .returned .success disk
  else match gptReadEntries world disk header with
    | .error status => .returned status disk
    | .ok entries => gptEntryLoop world entries header.sizeOfPartitionEntry
        header.numberOfPartitionEntries.toNat 0 1 disk

def pmpCreateGptPartitionPdo (world : ScanWorld) (disk : PmDisk Object) : ScanOutcome Object :=
  match gptReadHeader world disk with
  | .error status => .returned status disk
  | .ok buffer =>
    match rtlCompareMemory buffer gptSignature with
    | none => .overrun
    | some 8 =>
      if buffer.length < 88 then .overrun
      else gptScanEntries world disk (gptHeader buffer)
    | some _ => .returned .diskCorruptError disk

end Gpt

section Mbr
variable {Object : Type}

def mbrTypeEmpty : Byte := 0x00
def mbrTypeGptProtective : Byte := 0xEE

/-- The record of an entry of the boot record. -/
def mbrRecord (buffer : List Byte) (i : Nat) : List Byte := buffer.drop (446 + i * 16)

def mbrPartitionType (record : List Byte) : Byte := field 8 record 4

def mbrPartitionEntry (sectorSize : BitVec 32) (record : List Byte) : PmPartitionEntry where
  startingOffset := bytesOf ((field 32 record 8).setWidth 64) sectorSize
  partitionLength := bytesOf ((field 32 record 12).setWidth 64) sectorSize
  partitionStyle := .masterBootRecord
  hiddenSectors := field 32 record 8

/-- The loop over the four entries, with the entries that are left. -/
def mbrLoop (world : ScanWorld) (buffer : List Byte) :
    Nat → Nat → BitVec 32 → PmDisk Object → ScanOutcome Object
  | 0, _, _, disk => .returned .success disk
  | left + 1, i, partitionNum, disk =>
    let record := mbrRecord buffer i
    if record.length < 5 then .overrun
    else if mbrPartitionType record = mbrTypeEmpty then mbrLoop world buffer left (i + 1) partitionNum disk
    else if record.length < 16 then .overrun
    else if field 32 record 12 = 0 then mbrLoop world buffer left (i + 1) partitionNum disk
    else match pmpCreatePartitionDevice (world.deviceRefused i) disk
        (mbrPartitionEntry disk.bytesPerSector record) partitionNum
        (.mbr (mbrPartitionType record) (field 8 record 0)) with
      | (.success, disk) => mbrLoop world buffer left (i + 1) (partitionNum + 1) disk
      | (_, disk) => mbrLoop world buffer left (i + 1) partitionNum disk

/-- `PmpDetectAndCreatePartition`, of the first sector. -/
def pmpDetectAndCreatePartition (world : ScanWorld) (disk : PmDisk Object) (buffer : List Byte) :
    ScanOutcome Object :=
  if (mbrRecord buffer 0).length < 5 then .overrun
  else if mbrPartitionType (mbrRecord buffer 0) = mbrTypeGptProtective then pmpCreateGptPartitionPdo world disk
  else mbrLoop world buffer 4 0 1 disk

end Mbr

end VeaOS.Pm
