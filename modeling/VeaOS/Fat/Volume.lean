import VeaOS.Foundation.ByteMemory

/-! A FAT32 volume on its disk: the geometry that the mount takes from the boot
record, and the entries of the allocation tables. -/
namespace VeaOS.Fat
open Foundation

/-- Sectors by their number, bytes by their offset. -/
abbrev Disk := Memory Nat

structure Vcb where
  bytesPerSector : Nat
  sectorsPerCluster : Nat
  numberOfFats : Nat
  fatSizeSectors : Nat
  rootDirStartCluster : Nat
  fatStartLba : Nat
  dataStartLba : Nat
  totalClusters : Nat

def endOfChain : Nat := 0x0FFFFFFF

def isEof (cluster : Nat) : Bool := 0x0FFFFFF8 ≤ cluster

def setNext (oldVal nextCluster : Nat) : Nat :=
  oldVal / 0x10000000 * 0x10000000 + nextCluster % 0x10000000

namespace Vcb

def fatSectorLba (vcb : Vcb) (cluster : Nat) : Nat := vcb.fatStartLba + cluster * 4 / vcb.bytesPerSector

/-- The entry is taken from a table of words. -/
def fatOffset (vcb : Vcb) (cluster : Nat) : Nat := cluster * 4 % 0x100000000 % vcb.bytesPerSector / 4 * 4

def targetFatLba (vcb : Vcb) (cluster copy : Nat) : Nat :=
  vcb.fatSectorLba cluster + copy * vcb.fatSizeSectors % 0x100000000

def readSector (vcb : Vcb) (disk : Disk) (lba : Nat) : List Byte := disk.readBytes ⟨lba, 0⟩ vcb.bytesPerSector

def writeSector (disk : Disk) (lba : Nat) (buffer : List Byte) : Disk := disk.writeBytes ⟨lba, 0⟩ buffer

def entryIn (vcb : Vcb) (fatBuffer : List Byte) (cluster : Nat) : Nat :=
  ofLittleEndian ((fatBuffer.drop (vcb.fatOffset cluster)).take 4)

def withEntry (vcb : Vcb) (fatBuffer : List Byte) (cluster nextCluster : Nat) : List Byte :=
  splice fatBuffer (vcb.fatOffset cluster) (littleEndian 4 (setNext (vcb.entryIn fatBuffer cluster) nextCluster))

/-- The entry of a cluster in a copy of the table. -/
def entryPointer (vcb : Vcb) (copy cluster : Nat) : Pointer Nat :=
  ⟨vcb.targetFatLba cluster copy, vcb.fatOffset cluster⟩

def entry (vcb : Vcb) (disk : Disk) (copy cluster : Nat) : Nat :=
  ofLittleEndian (disk.readBytes (vcb.entryPointer copy cluster) 4)

def next (vcb : Vcb) (disk : Disk) (cluster : Nat) : Nat := vcb.entry disk 0 cluster % 0x10000000

/-- The clusters of the volume have entries in each table, the tables fit, and a sector
fits the buffer for the table. -/
structure WellFormed (vcb : Vcb) : Prop where
  sector : 0 < vcb.bytesPerSector
  words : 4 ∣ vcb.bytesPerSector
  buffer : vcb.bytesPerSector ≤ 4096
  tables : 0 < vcb.numberOfFats
  room : (vcb.totalClusters + 2) * 4 ≤ vcb.fatSizeSectors * vcb.bytesPerSector
  entries : (vcb.totalClusters + 2) * 4 ≤ 0x100000000
  sectors : vcb.numberOfFats * vcb.fatSizeSectors ≤ 0x100000000

section Entries
variable {vcb : Vcb} {disk : Disk} {copy copy' cluster cluster' : Nat}

theorem entryPointer_eq (formed : vcb.WellFormed) (known : cluster < vcb.totalClusters + 2)
    (inside : copy < vcb.numberOfFats) :
    vcb.entryPointer copy cluster =
      ⟨vcb.fatStartLba + cluster * 4 / vcb.bytesPerSector + copy * vcb.fatSizeSectors,
        cluster * 4 % vcb.bytesPerSector⟩ := by
  have entries := formed.entries
  have sectors : copy * vcb.fatSizeSectors < vcb.numberOfFats * vcb.fatSizeSectors := by
    refine Nat.mul_lt_mul_of_pos_right inside (Nat.pos_of_ne_zero fun none => ?_)
    have room := formed.room
    rw [none] at room
    omega
  have words : 4 ∣ cluster * 4 % vcb.bytesPerSector :=
    (Nat.dvd_mod_iff formed.words).mpr (Nat.dvd_mul_left 4 cluster)
  have offset : vcb.fatOffset cluster = cluster * 4 % vcb.bytesPerSector := by
    have small : cluster * 4 % 0x100000000 = cluster * 4 := Nat.mod_eq_of_lt (by omega)
    rw [fatOffset, small, Nat.div_mul_cancel words]
  rw [entryPointer, offset, targetFatLba, fatSectorLba,
    Nat.mod_eq_of_lt (Nat.lt_of_lt_of_le sectors formed.sectors)]

theorem fatOffset_inside (formed : vcb.WellFormed) (cluster : Nat) :
    vcb.fatOffset cluster + 4 ≤ vcb.bytesPerSector := by
  obtain ⟨words, whole⟩ := formed.words
  have below := Nat.mod_lt (cluster * 4 % 0x100000000) formed.sector
  rw [fatOffset]
  omega

theorem entryPointer_inj (formed : vcb.WellFormed) (known : cluster < vcb.totalClusters + 2)
    (known' : cluster' < vcb.totalClusters + 2) (inside : copy < vcb.numberOfFats)
    (inside' : copy' < vcb.numberOfFats) (one : (vcb.entryPointer copy cluster).Spans 4 lba i)
    (two : (vcb.entryPointer copy' cluster').Spans 4 lba i) : copy = copy' ∧ cluster = cluster' := by
  rw [entryPointer_eq formed known inside] at one
  rw [entryPointer_eq formed known' inside'] at two
  obtain ⟨same, low, high⟩ := one
  obtain ⟨same', low', high'⟩ := two
  dsimp only at same same' low low' high high'
  have sector : ∀ c, c < vcb.totalClusters + 2 → c * 4 / vcb.bytesPerSector < vcb.fatSizeSectors := fun c known =>
    (Nat.div_lt_iff_lt_mul formed.sector).mpr (by have room := formed.room; omega)
  have quotient : ∀ c f, c < vcb.totalClusters + 2 →
      (c * 4 / vcb.bytesPerSector + f * vcb.fatSizeSectors) / vcb.fatSizeSectors = f := fun c f known => by
    have below := sector c known
    rw [Nat.add_mul_div_right _ _ (Nat.zero_lt_of_lt below), Nat.div_eq_of_lt below, Nat.zero_add]
  have sum : cluster * 4 / vcb.bytesPerSector + copy * vcb.fatSizeSectors =
      cluster' * 4 / vcb.bytesPerSector + copy' * vcb.fatSizeSectors := by omega
  have copies : copy = copy' := by rw [← quotient cluster copy known, sum, quotient cluster' copy' known']
  subst copies
  have words : ∀ c, 4 ∣ c * 4 % vcb.bytesPerSector := fun c =>
    (Nat.dvd_mod_iff formed.words).mpr (Nat.dvd_mul_left 4 c)
  obtain ⟨a, offset⟩ := words cluster
  obtain ⟨b, offset'⟩ := words cluster'
  have here := Nat.div_add_mod (cluster * 4) vcb.bytesPerSector
  have there := Nat.div_add_mod (cluster' * 4) vcb.bytesPerSector
  have sectors : cluster * 4 / vcb.bytesPerSector = cluster' * 4 / vcb.bytesPerSector := by omega
  rw [sectors] at here
  exact ⟨rfl, by omega⟩

theorem entryIn_readSector (formed : vcb.WellFormed) (disk : Disk) (copy cluster : Nat) :
    vcb.entryIn (vcb.readSector disk (vcb.targetFatLba cluster copy)) cluster = vcb.entry disk copy cluster := by
  rw [entryIn, readSector, Memory.readBytes_slice (fatOffset_inside formed cluster), entry, entryPointer]
  congr 2
  rw [Pointer.add]
  simp only [Nat.zero_add]

theorem writeSector_withEntry (formed : vcb.WellFormed) (disk : Disk) (copy cluster nextCluster : Nat) :
    writeSector disk (vcb.targetFatLba cluster copy)
        (vcb.withEntry (vcb.readSector disk (vcb.targetFatLba cluster copy)) cluster nextCluster) =
      disk.writeBytes (vcb.entryPointer copy cluster)
        (littleEndian 4 (setNext (vcb.entry disk copy cluster) nextCluster)) := by
  rw [writeSector, withEntry, entryIn_readSector formed, readSector,
    Memory.writeBytes_splice (by rw [littleEndian_length]; exact fatOffset_inside formed cluster)]
  congr 1
  rw [entryPointer, Pointer.add, Nat.zero_add]

theorem entry_lt (vcb : Vcb) (disk : Disk) (copy cluster : Nat) : vcb.entry disk copy cluster < 0x100000000 :=
  ofLittleEndian_lt _ (Nat.le_of_eq (Memory.readBytes_length 4))

def withNext (vcb : Vcb) (disk : Disk) (copy cluster nextCluster : Nat) : Disk :=
  disk.writeBytes (vcb.entryPointer copy cluster) (littleEndian 4 (setNext (vcb.entry disk copy cluster) nextCluster))

theorem entry_withNext (vcb : Vcb) (disk : Disk) (copy cluster nextCluster : Nat) :
    vcb.entry (vcb.withNext disk copy cluster nextCluster) copy cluster =
      setNext (vcb.entry disk copy cluster) nextCluster := by
  have bytes : (disk.writeBytes (vcb.entryPointer copy cluster)
      (littleEndian 4 (setNext (vcb.entry disk copy cluster) nextCluster))).readBytes
      (vcb.entryPointer copy cluster) (littleEndian 4 (setNext (vcb.entry disk copy cluster) nextCluster)).length =
      littleEndian 4 (setNext (vcb.entry disk copy cluster) nextCluster) := Memory.readBytes_writeBytes
  rw [littleEndian_length] at bytes
  have bound := vcb.entry_lt disk copy cluster
  rw [entry, withNext, bytes, ofLittleEndian_four, setNext]
  omega

theorem withNext_outside (other : ¬ (vcb.entryPointer copy cluster).Spans 4 lba i) :
    vcb.withNext disk copy cluster nextCluster lba i = disk lba i :=
  Memory.writeBytes_outside (by rwa [littleEndian_length])

theorem entry_withNext_other (formed : vcb.WellFormed) (known : cluster < vcb.totalClusters + 2)
    (known' : cluster' < vcb.totalClusters + 2) (inside : copy < vcb.numberOfFats)
    (inside' : copy' < vcb.numberOfFats) (other : copy' ≠ copy ∨ cluster' ≠ cluster) :
    vcb.entry (vcb.withNext disk copy cluster nextCluster) copy' cluster' = vcb.entry disk copy' cluster' := by
  rw [entry, Memory.readBytes_congr fun lba i spans => withNext_outside fun spans' => ?_, entry]
  obtain ⟨copies, clusters⟩ := entryPointer_inj formed known' known inside' inside spans spans'
  exact other.elim (fun differ => differ copies) fun differ => differ clusters

end Entries
end Vcb
end VeaOS.Fat
