import VeaOS.Pm.PartitionScan

/-! The partitions that a GUID partition table lists, and when a scan creates
them: the entries have to be read where they are, and hold ranges of the disk. -/
namespace VeaOS.Pm
open Foundation ScanWorld
open Fat (field)

section Bytes

theorem field_take (bytes : List Byte) (inside : offset + w / 8 ≤ n) :
    field w (bytes.take n) offset = field w bytes offset := by
  rw [field, field, List.drop_take, List.take_take, Nat.min_eq_left (by omega)]

@[simp] theorem ScanWorld.diskBytes_length (world : ScanWorld) (start count : Nat) :
    (world.diskBytes start count).length = count := by
  rw [diskBytes, List.length_map, List.length_range]

theorem ScanWorld.diskBytes_drop (world : ScanWorld) (start count k : Nat) :
    (world.diskBytes start count).drop k = world.diskBytes (start + k) (count - k) := by
  apply List.ext_getElem
  · rw [List.length_drop, diskBytes_length, diskBytes_length]
  · intro i _ _
    simp only [diskBytes, List.getElem_drop, List.getElem_map, List.getElem_range, Nat.add_assoc]

theorem ScanWorld.diskBytes_take (world : ScanWorld) (start : Nat) (few : k ≤ count) :
    (world.diskBytes start count).take k = world.diskBytes start k := by
  rw [diskBytes, ← List.map_take, List.take_range, Nat.min_eq_left few, diskBytes]

theorem ScanWorld.field_diskBytes (world : ScanWorld) (start : Nat) (inside : offset + w / 8 ≤ count)
    (inside' : offset + w / 8 ≤ count') :
    field w (world.diskBytes start count) offset = field w (world.diskBytes start count') offset := by
  rw [← field_take (world.diskBytes start count) le_rfl, ← field_take (world.diskBytes start count') le_rfl,
    world.diskBytes_take start inside, world.diskBytes_take start inside']

theorem setWidth_toNat (n : BitVec 32) : (n.setWidth 64).toNat = n.toNat := by
  rw [BitVec.toNat_setWidth]
  exact Nat.mod_eq_of_lt (n.isLt.trans (by decide))

theorem bytesOf_toNat (sectors : BitVec 64) (sectorSize : BitVec 32) :
    (bytesOf sectors sectorSize).toNat = sectors.toNat * sectorSize.toNat % 2 ^ 64 := by
  rw [bytesOf, BitVec.toNat_mul, setWidth_toNat]

end Bytes

section Table
variable {Object : Type}

/-- The header of the table, as it is on the disk. -/
def ScanWorld.tableHeader (world : ScanWorld) (sectorSize : BitVec 32) : GptHeader :=
  gptHeader (world.diskBytes sectorSize.toNat 92)

/-- The record of an entry of the table, as it is on the disk. -/
def ScanWorld.tableRecord (world : ScanWorld) (sectorSize : BitVec 32) (i : Nat) : List Byte :=
  let header := world.tableHeader sectorSize
  world.diskBytes (header.partitionEntryLba.toNat * sectorSize.toNat +
    i * header.sizeOfPartitionEntry.toNat) 128

def InUse (record : List Byte) : Prop := record.take 16 ≠ guidNull

instance (record : List Byte) : Decidable (InUse record) := inferInstanceAs (Decidable (¬ _))

/-- The records of the entries in use, in the order of the table. -/
def ScanWorld.recordsInUse (world : ScanWorld) (sectorSize : BitVec 32) : List (List Byte) :=
  ((List.range (world.tableHeader sectorSize).numberOfPartitionEntries.toNat).filter fun i =>
    InUse (world.tableRecord sectorSize i)).map (world.tableRecord sectorSize)

/-- A device's range is the sectors of the record, from the first byte of the first one to the
last byte of the last one; it is not empty and inside of the disk. -/
def CoversSectors (sectorSize : BitVec 32) (diskLength : BitVec 64) (record : List Byte)
    (range : BitVec 64 × BitVec 64) : Prop :=
  range.1.toNat = (field 64 record 32).toNat * sectorSize.toNat ∧
    range.1.toNat + range.2.toNat = ((field 64 record 40).toNat + 1) * sectorSize.toNat ∧
    0 < range.2.toNat ∧ range.1.toNat + range.2.toNat ≤ diskLength.toNat

def PmDeviceExtension.range (dev : PmDeviceExtension Object) : BitVec 64 × BitVec 64 :=
  (dev.startingOffset, dev.partitionLength)

/-- The call reads in its buffers, and on success has created a partition for exactly the
entries in use, each with the bytes of its sectors; on failure it has created none. -/
def PartitionsRight (world : ScanWorld) (disk : PmDisk Object) (diskLength : BitVec 64) :
    ScanOutcome Object → Prop
  | .overrun => False
  | .returned status after =>
    ∃ created, after.partitionList = disk.partitionList ++ created ∧
      if status = .success then
        List.Forall₂ (CoversSectors disk.bytesPerSector diskLength)
          (world.recordsInUse disk.bytesPerSector) (created.map PmDeviceExtension.range)
      else created = []

/-- The sectors of a record are sectors of the disk. -/
def OnDisk (sectorSize : BitVec 32) (diskLength : BitVec 64) (record : List Byte) : Prop :=
  0 < sectorSize.toNat ∧ (field 64 record 32).toNat ≤ (field 64 record 40).toNat ∧
    ((field 64 record 40).toNat + 1) * sectorSize.toNat ≤ diskLength.toNat

def recordRange (sectorSize : BitVec 32) (record : List Byte) : BitVec 64 × BitVec 64 :=
  ((gptPartitionEntry sectorSize record).startingOffset, (gptPartitionEntry sectorSize record).partitionLength)

theorem recordRange_covers_iff (sectorSize : BitVec 32) (diskLength : BitVec 64) (record : List Byte) :
    CoversSectors sectorSize diskLength record (recordRange sectorSize record) ↔
      OnDisk sectorSize diskLength record := by
  have diskBound := diskLength.isLt
  have sectorBound := sectorSize.isLt
  generalize first : field 64 record 32 = startingLba
  generalize last : field 64 record 40 = endingLba
  have startBound := startingLba.isLt
  have endBound := endingLba.isLt
  simp only [CoversSectors, OnDisk, recordRange, gptPartitionEntry, first, last, bytesOf_toNat]
  constructor
  · rintro ⟨starts, ends, nonempty, fits⟩
    rw [ends] at fits
    rw [starts] at ends
    obtain zero | positive := Nat.eq_zero_or_pos sectorSize.toNat
    · rw [zero, Nat.mul_zero, Nat.zero_mod] at nonempty
      exact absurd nonempty (Nat.lt_irrefl 0)
    · refine ⟨positive, ?_, fits⟩
      have less : startingLba.toNat * sectorSize.toNat < (endingLba.toNat + 1) * sectorSize.toNat := by
        omega
      exact Nat.le_of_lt_succ (Nat.lt_of_mul_lt_mul_right less)
  · rintro ⟨positive, ordered, fits⟩
    have whole : (endingLba - startingLba + 1).toNat * sectorSize.toNat =
        (endingLba.toNat - startingLba.toNat + 1) * sectorSize.toNat := by
      congr 1
      have short : endingLba.toNat + 1 ≤ (endingLba.toNat + 1) * sectorSize.toNat :=
        Nat.le_mul_of_pos_right _ positive
      have one : (1 : BitVec 64).toNat = 1 := rfl
      rw [BitVec.toNat_add, BitVec.toNat_sub_of_le ordered, one]
      exact Nat.mod_eq_of_lt (by omega)
    have split : startingLba.toNat * sectorSize.toNat +
        (endingLba.toNat - startingLba.toNat + 1) * sectorSize.toNat =
        (endingLba.toNat + 1) * sectorSize.toNat := by
      rw [← Nat.add_mul]
      congr 1
      omega
    have nonempty : 0 < (endingLba.toNat - startingLba.toNat + 1) * sectorSize.toNat :=
      Nat.mul_pos (Nat.succ_pos _) positive
    rw [whole, Nat.mod_eq_of_lt (by omega), Nat.mod_eq_of_lt (by omega), split]
    exact ⟨rfl, rfl, nonempty, fits⟩

end Table

section Entries
variable {Object : Type} {world : ScanWorld} {disk : PmDisk Object}

/-- What the loop reads of an entry is in the buffer, of which `count` bytes are left there. -/
def Readable (world : ScanWorld) (i start count : Nat) : Prop :=
  16 ≤ count ∧ (InUse (world.diskBytes start 128) →
    48 ≤ count ∧ (world.deviceRefused i = none → 128 ≤ count))

theorem compare_guidNull (world : ScanWorld) (start : Nat) (long : 16 ≤ count) :
    ∃ n, rtlCompareMemory (world.diskBytes start count) guidNull = some n ∧
      (n = 16 ↔ ¬ InUse (world.diskBytes start 128)) := by
  have fits : guidNull.length ≤ (world.diskBytes start count).length := by
    rw [diskBytes_length]
    exact long
  obtain ⟨n, compared, whole⟩ := rtlCompareMemory_long fits
  refine ⟨n, compared, ?_⟩
  rw [InUse, not_not, world.diskBytes_take start (by decide), ← world.diskBytes_take start long]
  exact whole

theorem gptEntryStep_unused (long : 16 ≤ count) (unused : ¬ InUse (world.diskBytes start 128)) :
    gptEntryStep world (world.diskBytes start count) i partitionNum disk = some (partitionNum, disk) := by
  obtain ⟨n, compared, whole⟩ := compare_guidNull world start long
  obtain rfl := whole.mpr unused
  simp only [gptEntryStep, compared]

theorem gptEntryStep_used (long : 16 ≤ count) (used : InUse (world.diskBytes start 128)) :
    gptEntryStep world (world.diskBytes start count) i partitionNum disk =
      if count < 48 then none
      else if world.deviceRefused i = none ∧ count < 128 then none
      else match pmpCreatePartitionDevice (world.deviceRefused i) disk
          (gptPartitionEntry disk.bytesPerSector (world.diskBytes start count)) partitionNum
          (gptInfo (world.diskBytes start count)) with
        | (.success, disk) => some (partitionNum + 1, disk)
        | (_, disk) => some (partitionNum, disk) := by
  obtain ⟨n, compared, whole⟩ := compare_guidNull world start long
  have other : n ≠ 16 := fun same => whole.mp same used
  rw [gptEntryStep, compared, diskBytes_length]
  split
  next none => cases none
  next same => exact absurd (Option.some.inj same) other
  next => rfl

theorem gptEntryStep_overruns (unread : ¬ Readable world i start count) :
    gptEntryStep world (world.diskBytes start count) i partitionNum disk = none := by
  by_cases long : 16 ≤ count
  · by_cases used : InUse (world.diskBytes start 128)
    · rw [gptEntryStep_used long used]
      by_cases shorter : count < 48
      · rw [if_pos shorter]
      · rw [if_neg shorter, if_pos]
        by_contra within
        exact unread ⟨long, fun _ => ⟨Nat.le_of_not_lt shorter, fun accepted =>
          Nat.le_of_not_lt fun less => within ⟨accepted, less⟩⟩⟩
    · exact absurd ⟨long, fun inUse => absurd inUse used⟩ unread
  · rw [gptEntryStep]
    split
    next => rfl
    next whole =>
      have inside : guidNull.length ≤ (world.diskBytes start count).length := rtlCompareMemory_whole whole
      rw [diskBytes_length] at inside
      exact absurd inside long
    next => rw [if_pos (by rw [diskBytes_length]; omega)]

/-- The ranges of the devices that an entry adds. -/
def addedRanges (world : ScanWorld) (sectorSize : BitVec 32) (i start : Nat) : List (BitVec 64 × BitVec 64) :=
  if InUse (world.diskBytes start 128) ∧ world.deviceRefused i = none then
    [recordRange sectorSize (world.diskBytes start 128)] else []

theorem recordRange_diskBytes (world : ScanWorld) (sectorSize : BitVec 32) (start : Nat) (long : 48 ≤ count) :
    recordRange sectorSize (world.diskBytes start count) =
      recordRange sectorSize (world.diskBytes start 128) := by
  have starting : field 64 (world.diskBytes start count) 32 = field 64 (world.diskBytes start 128) 32 :=
    world.field_diskBytes start (by omega) (by decide)
  have ending : field 64 (world.diskBytes start count) 40 = field 64 (world.diskBytes start 128) 40 :=
    world.field_diskBytes start (by omega) (by decide)
  simp only [recordRange, gptPartitionEntry, starting, ending]

theorem gptEntryStep_reads (partitionNum : BitVec 32) (disk : PmDisk Object)
    (readable : Readable world i start count) :
    ∃ next after created,
      gptEntryStep world (world.diskBytes start count) i partitionNum disk = some (next, after) ∧
      after.bytesPerSector = disk.bytesPerSector ∧ after.partitionList = disk.partitionList ++ created ∧
      created.map PmDeviceExtension.range = addedRanges world disk.bytesPerSector i start := by
  obtain ⟨long, inRecord⟩ := readable
  by_cases used : InUse (world.diskBytes start 128)
  · obtain ⟨middle, whole⟩ := inRecord used
    rw [gptEntryStep_used long used, if_neg (Nat.not_lt_of_le middle), if_neg fun short =>
      absurd (whole short.1) (Nat.not_le_of_lt short.2)]
    cases refused : world.deviceRefused i with
    | some status =>
      refine ⟨partitionNum, disk, [], rfl, rfl, (List.append_nil _).symm, ?_⟩
      rw [addedRanges, if_neg fun both => by cases refused.symm.trans both.2]
      rfl
    | none =>
      refine ⟨partitionNum + 1, _, [_], rfl, rfl, rfl, ?_⟩
      rw [addedRanges, if_pos ⟨used, refused⟩, ← recordRange_diskBytes world _ start middle]
      rfl
  · rw [gptEntryStep_unused long used]
    refine ⟨partitionNum, disk, [], rfl, rfl, (List.append_nil _).symm, ?_⟩
    rw [addedRanges, if_neg fun both => used both.1]
    rfl

end Entries

section Loop
variable {Object : Type} {world : ScanWorld} {disk : PmDisk Object} {base buffered : Nat} {size : BitVec 32}

theorem place_toNat (few : i < 2 ^ 32) (inside : i * size.toNat < 2 ^ 32) :
    (BitVec.ofNat 32 i * size).toNat = i * size.toNat := by
  rw [BitVec.toNat_mul, BitVec.toNat_ofNat, Nat.mod_eq_of_lt few, Nat.mod_eq_of_lt inside]

def EntryReadable (world : ScanWorld) (size : BitVec 32) (base buffered i : Nat) : Prop :=
  Readable world i (base + i * size.toNat) (buffered - i * size.toNat)

theorem gptEntryLoop_reads (partitionNum : BitVec 32) (disk : PmDisk Object) (few : i + left ≤ 2 ^ 32)
    (inside : (i + left) * size.toNat < 2 ^ 32)
    (readable : ∀ j, i ≤ j → j < i + left → EntryReadable world size base buffered j) :
    ∃ after created, gptEntryLoop world (world.diskBytes base buffered) size left i partitionNum disk =
        .returned .success after ∧ after.partitionList = disk.partitionList ++ created ∧
      created.map PmDeviceExtension.range = (List.range' i left).flatMap fun j =>
        addedRanges world disk.bytesPerSector j (base + j * size.toNat) := by
  induction left generalizing i partitionNum disk with
  | zero => exact ⟨disk, [], rfl, (List.append_nil _).symm, rfl⟩
  | succ left ih =>
    have this : i * size.toNat < 2 ^ 32 :=
      (Nat.mul_le_mul_right _ (Nat.le_add_right i (left + 1))).trans_lt inside
    obtain ⟨next, between, first, step, sectors, grown, ranges⟩ :=
      gptEntryStep_reads partitionNum disk (readable i le_rfl (by omega))
    have shift : i + 1 + left = i + (left + 1) := by omega
    obtain ⟨after, rest, ends, grown', ranges'⟩ := ih next between (by omega)
      (shift.symm ▸ inside) fun j low high => readable j (Nat.le_of_succ_le low) (by omega)
    refine ⟨after, first ++ rest, ?_, ?_, ?_⟩
    · rw [gptEntryLoop, place_toNat (by omega) this, world.diskBytes_drop, step]
      exact ends
    · rw [grown', grown, List.append_assoc]
    · rw [List.map_append, ranges, ranges', sectors, List.range'_succ, List.flatMap_cons]

theorem gptEntryLoop_overruns (few : i + left ≤ 2 ^ 32) (inside : (i + left) * size.toNat < 2 ^ 32)
    (low : i ≤ j) (high : j < i + left) (unread : ¬ EntryReadable world size base buffered j) :
    gptEntryLoop world (world.diskBytes base buffered) size left i partitionNum disk = .overrun := by
  induction left generalizing i partitionNum disk with
  | zero => exact absurd high (Nat.not_lt_of_le low)
  | succ left ih =>
    have this : i * size.toNat < 2 ^ 32 :=
      (Nat.mul_le_mul_right _ (Nat.le_add_right i (left + 1))).trans_lt inside
    have shift : i + 1 + left = i + (left + 1) := by omega
    rw [gptEntryLoop, place_toNat (by omega) this, world.diskBytes_drop]
    obtain rfl | later := Nat.eq_or_lt_of_le low
    · rw [gptEntryStep_overruns unread]
    · split
      next => rfl
      next => exact ih (by omega) (shift.symm ▸ inside) later (by omega)

end Loop

section Pairs
variable {ι : Type} (used accepted : ι → Prop) [DecidablePred used] [DecidablePred accepted]

/-- What is added for the accepted ones among those in use. -/
def addedFor {β : Type} (g : ι → β) (i : ι) : List β := if used i ∧ accepted i then [g i] else []

theorem addedFor_length_le {β : Type} (g : ι → β) (l : List ι) :
    (l.flatMap (addedFor used accepted g)).length ≤ (l.filter used).length := by
  induction l with
  | nil => exact le_rfl
  | cons i l ih =>
    rw [List.flatMap_cons, List.length_append, List.filter_cons, addedFor]
    by_cases inUse : used i
    · rw [if_pos (decide_eq_true inUse), List.length_cons]
      split
      next => exact (Nat.add_comm 1 _).trans_le (Nat.succ_le_succ ih)
      next => exact (Nat.zero_add _).trans_le (Nat.le_succ_of_le ih)
    · rw [if_neg fun both => inUse both.1, if_neg (fun holds => inUse (of_decide_eq_true holds))]
      exact (Nat.zero_add _).trans_le ih

theorem forall₂_addedFor_iff {β γ : Type} (R : γ → β → Prop) (f : ι → γ) (g : ι → β)
    (l : List ι) :
    List.Forall₂ R ((l.filter used).map f) (l.flatMap (addedFor used accepted g)) ↔
      ∀ i ∈ l, used i → accepted i ∧ R (f i) (g i) := by
  induction l with
  | nil => exact ⟨fun _ _ member => (by cases member), fun _ => List.Forall₂.nil⟩
  | cons i l ih =>
    rw [List.forall_mem_cons, ← ih, List.flatMap_cons, List.filter_cons]
    by_cases inUse : used i
    · rw [if_pos (decide_eq_true inUse), List.map_cons]
      by_cases taken : accepted i
      · rw [addedFor, if_pos ⟨inUse, taken⟩, List.singleton_append, List.forall₂_cons]
        exact and_congr_left fun _ => ⟨fun related _ => ⟨taken, related⟩, fun all => (all inUse).2⟩
      · rw [addedFor, if_neg fun both => taken both.2, List.nil_append]
        constructor
        · intro related
          have few := addedFor_length_le used accepted g l
          have same := related.length_eq
          rw [List.length_cons, List.length_map] at same
          omega
        · exact fun all => absurd (all.1 inUse).1 taken
    · rw [if_neg (fun holds => inUse (of_decide_eq_true holds)), addedFor, if_neg fun both => inUse both.1,
        List.nil_append]
      exact ⟨fun related => ⟨fun holds => absurd holds inUse, related⟩, fun all => all.2⟩

end Pairs

section Reads
variable {Object : Type} {world : ScanWorld} {disk : PmDisk Object}

theorem pmpReadSectors_ok (read : pmpReadSectors world disk lba count = .ok buffer) :
    buffer = world.diskBytes (bytesOf lba disk.bytesPerSector).toNat buffer.length := by
  simp only [pmpReadSectors] at read
  split at read
  next => cases read
  next =>
    split at read
    next => cases read
    next =>
      cases read
      rw [diskBytes_length]

theorem pmpReadSectors_error (read : pmpReadSectors world disk lba count = .error status) :
    status ≠ .success := by
  simp only [pmpReadSectors] at read
  split at read
  next =>
    cases read
    exact fun same => by cases same
  next =>
    split at read
    next =>
      cases read
      exact fun same => by cases same
    next => cases read

theorem gptReadHeader_error (read : gptReadHeader world disk = .error status) : status ≠ .success := by
  rw [gptReadHeader] at read
  split at read
  next => exact pmpReadSectors_error read
  next =>
    cases read
    exact fun same => by cases same

theorem gptReadEntries_error (read : gptReadEntries world disk header = .error status) :
    status ≠ .success := by
  simp only [gptReadEntries] at read
  split at read
  next => exact pmpReadSectors_error read
  next =>
    cases read
    exact fun same => by cases same

theorem gptReadHeader_ok (read : gptReadHeader world disk = .ok buffer) :
    buffer = world.diskBytes disk.bytesPerSector.toNat buffer.length := by
  have bound := disk.bytesPerSector.isLt
  rw [gptReadHeader] at read
  split at read
  next =>
    have bytes := pmpReadSectors_ok read
    rwa [bytesOf_toNat, show gptHeaderLba.toNat = 1 from rfl, Nat.one_mul, Nat.mod_eq_of_lt (by omega)] at bytes
  next => cases read

theorem gptReadEntries_ok (read : gptReadEntries world disk header = .ok entries)
    (placed : header.partitionEntryLba.toNat * disk.bytesPerSector.toNat < 2 ^ 64) :
    entries = world.diskBytes (header.partitionEntryLba.toNat * disk.bytesPerSector.toNat) entries.length := by
  simp only [gptReadEntries] at read
  split at read
  next =>
    have bytes := pmpReadSectors_ok read
    rwa [bytesOf_toNat, Nat.mod_eq_of_lt placed] at bytes
  next => cases read

theorem gptHeader_read (world : ScanWorld) (sectorSize : BitVec 32) (long : 88 ≤ count) :
    gptHeader (world.diskBytes sectorSize.toNat count) = world.tableHeader sectorSize := by
  have lba : field 64 (world.diskBytes sectorSize.toNat count) 72 =
      field 64 (world.diskBytes sectorSize.toNat 92) 72 :=
    world.field_diskBytes _ (by omega) (by decide)
  have number : field 32 (world.diskBytes sectorSize.toNat count) 80 =
      field 32 (world.diskBytes sectorSize.toNat 92) 80 :=
    world.field_diskBytes _ (by omega) (by decide)
  have size : field 32 (world.diskBytes sectorSize.toNat count) 84 =
      field 32 (world.diskBytes sectorSize.toNat 92) 84 :=
    world.field_diskBytes _ (by omega) (by decide)
  simp only [tableHeader, gptHeader, lba, number, size]

end Reads

section Main
variable {Object : Type}

/-- The array of the entries has less than 2^32 bytes, from a byte below 2^64 on. -/
structure ArrayPlaced (header : GptHeader) (sectorSize : BitVec 32) : Prop where
  size : header.numberOfPartitionEntries.toNat * header.sizeOfPartitionEntry.toNat < 2 ^ 32
  start : header.partitionEntryLba.toNat * sectorSize.toNat < 2 ^ 64

/-- The bytes of the array of the entries, in the 32 bits of the code. -/
def GptHeader.entriesByteSize (header : GptHeader) : BitVec 32 :=
  header.numberOfPartitionEntries * header.sizeOfPartitionEntry

/-- Where the array of a signed header is read, it is placed. -/
def TablePlaced (world : ScanWorld) (disk : PmDisk Object) : Prop :=
  let header := world.tableHeader disk.bytesPerSector
  ∀ buffer, gptReadHeader world disk = .ok buffer → rtlCompareMemory buffer gptSignature = some 8 →
    88 ≤ buffer.length → header.entriesByteSize ≠ 0 → ∀ entries, gptReadEntries world disk header = .ok entries →
      ArrayPlaced header disk.bytesPerSector

/-- The entries can be read where they are, and those in use are of sectors of the disk. -/
def EntriesSound (world : ScanWorld) (disk : PmDisk Object) (diskLength : BitVec 64) : Prop :=
  let sectorSize := disk.bytesPerSector
  let header := world.tableHeader sectorSize
  let size := header.sizeOfPartitionEntry.toNat
  let number := header.numberOfPartitionEntries.toNat
  (header.entriesByteSize = 0 → ∀ i < number, ¬ InUse (world.tableRecord sectorSize i)) ∧
    (header.entriesByteSize ≠ 0 → ∀ entries, gptReadEntries world disk header = .ok entries → ∀ i < number,
      i * size + 16 ≤ entries.length ∧ (InUse (world.tableRecord sectorSize i) →
        i * size + 128 ≤ entries.length ∧ world.deviceRefused i = none ∧
          OnDisk sectorSize diskLength (world.tableRecord sectorSize i)))

/-- When the header is read, the sector has room for the signature, and with the signature for
the fields behind it. -/
def TableSound (world : ScanWorld) (disk : PmDisk Object) (diskLength : BitVec 64) : Prop :=
  ∀ buffer, gptReadHeader world disk = .ok buffer →
    rtlCompareMemory buffer gptSignature ≠ none ∧
      (rtlCompareMemory buffer gptSignature = some 8 →
        88 ≤ buffer.length ∧ EntriesSound world disk diskLength)

theorem partitionsRight_failed {disk : PmDisk Object} (failure : status ≠ .success) :
    PartitionsRight world disk diskLength (.returned status disk) :=
  ⟨[], (List.append_nil _).symm, by rw [if_neg failure]⟩

theorem partitionsRight_success {disk after : PmDisk Object}
    (grown : after.partitionList = disk.partitionList ++ created) :
    PartitionsRight world disk diskLength (.returned .success after) ↔
      List.Forall₂ (CoversSectors disk.bytesPerSector diskLength)
        (world.recordsInUse disk.bytesPerSector) (created.map PmDeviceExtension.range) := by
  constructor
  · rintro ⟨created', grown', right⟩
    rw [if_pos rfl] at right
    rwa [List.append_cancel_left (grown.symm.trans grown')]
  · exact fun right => ⟨created, grown, by rwa [if_pos rfl]⟩

theorem recordsInUse_nil_iff (world : ScanWorld) (sectorSize : BitVec 32) :
    world.recordsInUse sectorSize = [] ↔
      ∀ i < (world.tableHeader sectorSize).numberOfPartitionEntries.toNat,
        ¬ InUse (world.tableRecord sectorSize i) := by
  rw [recordsInUse, List.map_eq_nil_iff, List.filter_eq_nil_iff]
  simp only [List.mem_range, decide_eq_true_eq]

/-- The loop over the entries of a table that was read. -/
theorem entries_right_iff (world : ScanWorld) (disk : PmDisk Object) (diskLength : BitVec 64)
    (placed : ArrayPlaced (world.tableHeader disk.bytesPerSector) disk.bytesPerSector)
    (read : gptReadEntries world disk (world.tableHeader disk.bytesPerSector) = .ok entries) :
    PartitionsRight world disk diskLength
        (gptEntryLoop world entries (world.tableHeader disk.bytesPerSector).sizeOfPartitionEntry
          (world.tableHeader disk.bytesPerSector).numberOfPartitionEntries.toNat 0 1 disk) ↔
      ∀ i < (world.tableHeader disk.bytesPerSector).numberOfPartitionEntries.toNat,
        i * (world.tableHeader disk.bytesPerSector).sizeOfPartitionEntry.toNat + 16 ≤ entries.length ∧
          (InUse (world.tableRecord disk.bytesPerSector i) →
            i * (world.tableHeader disk.bytesPerSector).sizeOfPartitionEntry.toNat + 128 ≤ entries.length ∧
              world.deviceRefused i = none ∧
                OnDisk disk.bytesPerSector diskLength (world.tableRecord disk.bytesPerSector i)) := by
  have bytes := gptReadEntries_ok read placed.start
  generalize buffered : entries.length = length at bytes ⊢
  subst bytes
  generalize headerIs : world.tableHeader disk.bytesPerSector = header at *
  have few : 0 + header.numberOfPartitionEntries.toNat ≤ 2 ^ 32 := by
    rw [Nat.zero_add]
    exact header.numberOfPartitionEntries.isLt.le
  have inside : (0 + header.numberOfPartitionEntries.toNat) * header.sizeOfPartitionEntry.toNat < 2 ^ 32 := by
    rw [Nat.zero_add]
    exact placed.size
  have recordIs (i : Nat) : world.tableRecord disk.bytesPerSector i =
      world.diskBytes (header.partitionEntryLba.toNat * disk.bytesPerSector.toNat +
        i * header.sizeOfPartitionEntry.toNat) 128 := by
    rw [tableRecord, headerIs]
  by_cases readable : ∀ j, 0 ≤ j → j < 0 + header.numberOfPartitionEntries.toNat →
      EntryReadable world header.sizeOfPartitionEntry
        (header.partitionEntryLba.toNat * disk.bytesPerSector.toNat) length j
  · obtain ⟨after, created, ends, grown, ranges⟩ :=
      gptEntryLoop_reads 1 disk few inside readable
    rw [ends, partitionsRight_success grown, ranges, recordsInUse, headerIs, List.range_eq_range']
    have pairs := forall₂_addedFor_iff (fun i => InUse (world.tableRecord disk.bytesPerSector i))
      (fun i => world.deviceRefused i = none) (CoversSectors disk.bytesPerSector diskLength)
      (world.tableRecord disk.bytesPerSector)
      (fun i => recordRange disk.bytesPerSector (world.tableRecord disk.bytesPerSector i))
      (List.range' 0 header.numberOfPartitionEntries.toNat)
    have sameAdded : (fun j => addedRanges world disk.bytesPerSector j
        (header.partitionEntryLba.toNat * disk.bytesPerSector.toNat + j * header.sizeOfPartitionEntry.toNat)) =
        addedFor (fun i => InUse (world.tableRecord disk.bytesPerSector i))
          (fun i => world.deviceRefused i = none)
          (fun i => recordRange disk.bytesPerSector (world.tableRecord disk.bytesPerSector i)) := by
      funext j
      simp only [addedRanges, addedFor, recordIs]
    rw [sameAdded, pairs]
    constructor
    · intro right i among
      obtain ⟨long, inRecord⟩ := readable i (Nat.zero_le i) (by omega)
      refine ⟨by omega, fun used => ?_⟩
      obtain ⟨accepted, covered⟩ := right i (List.mem_range'_1.mpr ⟨Nat.zero_le i, by omega⟩) used
      have whole := (inRecord (recordIs i ▸ used)).2 accepted
      exact ⟨by omega, accepted, (recordRange_covers_iff _ _ _).mp covered⟩
    · intro sound i member used
      obtain ⟨_, among⟩ := List.mem_range'_1.mp member
      obtain ⟨_, accepted, onDisk⟩ := (sound i (by omega)).2 used
      exact ⟨accepted, (recordRange_covers_iff _ _ _).mpr onDisk⟩
  · constructor
    · intro right
      simp only [not_forall] at readable
      obtain ⟨j, low, high, unread⟩ := readable
      rw [gptEntryLoop_overruns few inside low high unread] at right
      exact absurd right not_false
    · intro sound
      refine absurd (fun j _ among => ?_) readable
      obtain ⟨short, inRecord⟩ := sound j (by omega)
      refine ⟨by omega, fun used => ?_⟩
      obtain ⟨long, _⟩ := inRecord ((recordIs j).symm ▸ used)
      exact ⟨by omega, fun _ => by omega⟩

theorem scanEntries_right_iff (world : ScanWorld) (disk : PmDisk Object) (diskLength : BitVec 64)
    (placed : (world.tableHeader disk.bytesPerSector).entriesByteSize ≠ 0 → ∀ entries,
      gptReadEntries world disk (world.tableHeader disk.bytesPerSector) = .ok entries →
        ArrayPlaced (world.tableHeader disk.bytesPerSector) disk.bytesPerSector) :
    PartitionsRight world disk diskLength
        (gptScanEntries world disk (world.tableHeader disk.bytesPerSector)) ↔
      EntriesSound world disk diskLength := by
  rw [gptScanEntries]
  simp only [EntriesSound, GptHeader.entriesByteSize] at placed ⊢
  split
  next zero =>
    rw [partitionsRight_success (List.append_nil _).symm, List.map_nil, List.forall₂_nil_right_iff,
      recordsInUse_nil_iff]
    exact ⟨fun none => ⟨fun _ => none, fun some => absurd zero some⟩, fun sound => sound.1 zero⟩
  next positive =>
    cases entriesRead : gptReadEntries world disk (world.tableHeader disk.bytesPerSector) with
    | error status =>
      exact ⟨fun _ => ⟨fun zero => absurd zero positive, fun _ entries same => by cases same⟩,
        fun _ => partitionsRight_failed (gptReadEntries_error entriesRead)⟩
    | ok entries =>
      refine (entries_right_iff world disk diskLength (placed positive entries entriesRead) entriesRead).trans
        ⟨fun sound => ⟨fun zero => absurd zero positive, fun _ other same => ?_⟩,
          fun sound => sound.2 positive entries rfl⟩
      exact Except.ok.inj same ▸ sound

/-- Where the array of the entries is placed, the partitions are right exactly when the table is
sound for the sectors of the disk. -/
theorem gpt_partitions_iff (world : ScanWorld) (disk : PmDisk Object) (diskLength : BitVec 64)
    (placed : TablePlaced world disk) : PartitionsRight world disk diskLength (pmpCreateGptPartitionPdo world disk) ↔
      TableSound world disk diskLength := by
  rw [TableSound]
  cases read : gptReadHeader world disk with
  | error status =>
    simp only [pmpCreateGptPartitionPdo, read]
    exact ⟨fun _ buffer same => (by cases same),
      fun _ => partitionsRight_failed (gptReadHeader_error read)⟩
  | ok buffer =>
    simp only [pmpCreateGptPartitionPdo, read]
    have outer : (∀ other, (Except.ok buffer : Except PmStatus (List Byte)) = .ok other →
        rtlCompareMemory other gptSignature ≠ none ∧ (rtlCompareMemory other gptSignature = some 8 →
          88 ≤ other.length ∧ EntriesSound world disk diskLength)) ↔
        rtlCompareMemory buffer gptSignature ≠ none ∧ (rtlCompareMemory buffer gptSignature = some 8 →
          88 ≤ buffer.length ∧ EntriesSound world disk diskLength) :=
      ⟨fun all => all buffer rfl, fun one other same => Except.ok.inj same ▸ one⟩
    rw [outer]
    split
    next compared => simp only [compared, PartitionsRight, ne_eq, not_true_eq_false, false_and]
    next compared =>
      rw [compared]
      split
      next short =>
        exact ⟨fun right => absurd right not_false, fun sound =>
          absurd (sound.2 rfl).1 (Nat.not_le_of_lt short)⟩
      next long =>
        have header : gptHeader buffer = world.tableHeader disk.bytesPerSector := by
          rw [gptReadHeader_ok read]
          exact gptHeader_read world _ (Nat.le_of_not_lt long)
        have array := placed buffer read compared (Nat.le_of_not_lt long)
        rw [header, scanEntries_right_iff world disk diskLength array]
        exact ⟨fun sound => ⟨fun none => (by cases none), fun _ => ⟨Nat.le_of_not_lt long, sound⟩⟩,
          fun sound => (sound.2 rfl).2⟩
    next n other compared =>
      rw [compared]
      exact ⟨fun _ => ⟨fun none => (by cases none), fun same => absurd (Option.some.inj same) other⟩,
        fun _ => partitionsRight_failed fun same => by cases same⟩

end Main

section Sample

/-- A disk with a table of one entry, of the sectors from the 34th to the one given. -/
def tableWorld (endingLba : Byte) : ScanWorld where
  bytes b :=
    if 512 ≤ b ∧ b < 520 then gptSignature.getD (b - 512) 0
    else if b = 584 then 2
    else if b = 592 then 1
    else if b = 596 then 128
    else if 1024 ≤ b ∧ b < 1040 then 0xA5
    else if 1040 ≤ b ∧ b < 1056 then 0x11
    else if b = 1056 then 34
    else if b = 1064 then endingLba
    else 0
  refuses _ _ := none
  headerAllocated := true
  entriesAllocated := true
  deviceRefused _ := none

def tableDisk : PmDisk Unit := ⟨(), 0, 512, [], 0⟩

/-- The device of the entry, with the length in bytes. -/
def tableDevice (length : BitVec 64) : PmDeviceExtension Unit :=
  ⟨(), 0, 1, 512, 34 * 512, length, .guidPartitionTable,
    .gpt (List.replicate 16 0xA5) (List.replicate 16 0x11) 0 (List.replicate 72 0)⟩

theorem table_scanned : pmpCreateGptPartitionPdo (tableWorld 65) tableDisk =
    .returned .success { tableDisk with partitionList := [tableDevice (32 * 512)], partitionCount := 1 } := by
  decide +kernel

theorem table_scanned_beyond : pmpCreateGptPartitionPdo (tableWorld 255) tableDisk =
    .returned .success { tableDisk with partitionList := [tableDevice (222 * 512)], partitionCount := 1 } := by
  decide +kernel

theorem gpt_partitions_sample : TableSound (tableWorld 65) tableDisk (66 * 512) := by
  have placed : TablePlaced (tableWorld 65) tableDisk := fun _ _ _ _ _ _ _ => ⟨by decide +kernel, by decide +kernel⟩
  refine (gpt_partitions_iff (tableWorld 65) tableDisk (66 * 512) placed).mp ?_
  rw [table_scanned]
  refine ⟨[tableDevice (32 * 512)], rfl, ?_⟩
  have used : (tableWorld 65).recordsInUse 512 = [(tableWorld 65).tableRecord 512 0] := by decide +kernel
  rw [if_pos rfl, show tableDisk.bytesPerSector = 512 from rfl, used]
  refine List.Forall₂.cons ⟨?_, ?_, ?_, ?_⟩ List.Forall₂.nil
  all_goals decide +kernel

/-- An entry that ends beyond the disk becomes a partition that does. -/
theorem gpt_partitions_beyond : ¬ PartitionsRight (tableWorld 255) tableDisk (66 * 512)
    (pmpCreateGptPartitionPdo (tableWorld 255) tableDisk) := by
  rw [table_scanned_beyond]
  rintro ⟨created, grown, covered⟩
  have only : [tableDevice (222 * 512)] = created := grown
  rw [if_pos rfl, ← only] at covered
  obtain ⟨record, _, covers, _, _⟩ := List.forall₂_cons_right_iff.mp covered
  exact absurd covers.2.2.2 (by decide)

end Sample

end VeaOS.Pm
