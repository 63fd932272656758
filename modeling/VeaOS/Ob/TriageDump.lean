import Mathlib.Algebra.GroupWithZero.Nat
import Mathlib.Data.List.Nodup

/-! The preparation of the crash dump: the blocks of a reserved file are recorded before the system
fails, so that they can be written without the file system. -/
namespace VeaOS.Triage

open List

/-- What the query for the extents of the reserved file leaves in the buffer. It is not cleared
before. -/
structure RetrievalPointers where
  extentCount : BitVec 32
  startingVcn : BitVec 64
  nextVcn : Nat → BitVec 64
  lcn : Nat → BitVec 64

structure IoDumpRoutine where
  flush : BitVec 32
  write : BitVec 32
  deriving DecidableEq, Repr

structure DumpSystem where
  lbaBlockMap : List (BitVec 32)
  lbaBlockCount : Nat
  armed : Bool
  routine : IoDumpRoutine
  deriving DecidableEq, Repr

def dumpStart : DumpSystem := ⟨List.replicate 32 0, 0, false, ⟨0, 0⟩⟩

/-- The statuses of the requests, with what they leave in their buffers. -/
structure DumpRequests where
  createFile : BitVec 32
  outBuffer : Bool
  retrievalPointers : BitVec 32 × RetrievalPointers
  dumpRoutine : BitVec 32 × IoDumpRoutine

def veaSuccess (status : BitVec 32) : Bool := !status.msb

def obioGetDumpRoutine (requests : DumpRequests) (system : DumpSystem) : BitVec 32 × DumpSystem :=
  if veaSuccess requests.dumpRoutine.1 then
    (requests.dumpRoutine.1, { system with routine := requests.dumpRoutine.2 })
  else (requests.dumpRoutine.1, system)

def partitionStartLba : BitVec 64 := 0

/-- The number that is recorded for a block of the dump. -/
def recordedLba (out : RetrievalPointers) (i : Nat) : BitVec 32 :=
  (partitionStartLba + out.lcn 0 + BitVec.ofNat 64 i).setWidth 32

/-- The status of the query for the extents is not looked at. -/
def obioInitializeDumpSystem (requests : DumpRequests) (system : DumpSystem) : DumpSystem :=
  if !veaSuccess requests.createFile then system
  else if !requests.outBuffer then system
  else
    let out := requests.retrievalPointers.2
    let system :=
      if 0 < out.extentCount then
        { system with
          lbaBlockMap := (List.range 32).map (recordedLba out)
          lbaBlockCount := 32
          armed := true }
      else system
    (obioGetDumpRoutine requests system).2

def dumpBufferSize : Nat := 1024 * 16
def dumpBlockSize : Nat := 512

section Volumes

/-- A run of clusters of a file, which has no place when it is sparse. -/
structure Extent where
  lcn : Option Nat
  clusters : Nat
  deriving DecidableEq, Repr

/-- Where the clusters of a volume are on its disk, in blocks. -/
structure Volume where
  partitionStart : Nat
  clusterStart : Nat
  blocksPerCluster : Nat
  positive : 0 < blocksPerCluster

/-- The block of the disk with which the clusters begin. -/
def Volume.start (volume : Volume) : Nat := volume.partitionStart + volume.clusterStart

def Volume.blockOf (volume : Volume) (cluster : Nat) : Nat :=
  volume.start + cluster * volume.blocksPerCluster

/-- A block of the disk holds data of an extent. -/
def Extent.Holds (volume : Volume) (extent : Extent) (block : Nat) : Prop :=
  ∃ lcn, extent.lcn = some lcn ∧ volume.blockOf lcn ≤ block ∧ block < volume.blockOf (lcn + extent.clusters)

def FileBlock (volume : Volume) (file : List Extent) (block : Nat) : Prop :=
  ∃ extent ∈ file, extent.Holds volume block

/-- An armed system writes to blocks of the file, and to as many as the dump has. -/
structure DumpRight (volume : Volume) (file : List Extent) (system : DumpSystem) : Prop where
  inside : system.armed = true → ∀ lba ∈ system.lbaBlockMap.take system.lbaBlockCount,
    FileBlock volume file lba.toNat
  enough : system.armed = true → (system.lbaBlockMap.take system.lbaBlockCount).Nodup ∧
    (system.lbaBlockMap.take system.lbaBlockCount).length = dumpBufferSize / dumpBlockSize

def FileCluster (file : List Extent) (cluster : Nat) : Prop :=
  ∃ extent ∈ file, ∃ lcn, extent.lcn = some lcn ∧ lcn ≤ cluster ∧ cluster < lcn + extent.clusters

/-- The clusters are the file's that the blocks of the disk from `first` to `last` belong to. -/
structure ClustersOwned (volume : Volume) (file : List Extent) (first last : Nat) : Prop where
  behind : volume.start ≤ first
  owned : ∀ cluster, (first - volume.start) / volume.blocksPerCluster ≤ cluster →
    cluster ≤ (last - volume.start) / volume.blocksPerCluster → FileCluster file cluster

/-- The number of the first cluster, in the 32 bits of a recorded number. -/
def firstNumber (requests : DumpRequests) : Nat := (requests.retrievalPointers.2.lcn 0).toNat % 2 ^ 32

/-- Nothing is recorded, or the file owns the clusters of the 32 blocks of the disk from the number
of its first cluster on. The last numbers of 32 bits are followed by the first ones. -/
def DumpClean (volume : Volume) (file : List Extent) (requests : DumpRequests) : Prop :=
  veaSuccess requests.createFile = false ∨ requests.outBuffer = false ∨
    requests.retrievalPointers.2.extentCount = 0 ∨
    if firstNumber requests + 32 ≤ 2 ^ 32 then
      ClustersOwned volume file (firstNumber requests) (firstNumber requests + 31)
    else ClustersOwned volume file (firstNumber requests) (2 ^ 32 - 1) ∧
      ClustersOwned volume file 0 (firstNumber requests + 31 - 2 ^ 32)

theorem fileBlock_iff {volume : Volume} {file : List Extent} (block : Nat) : FileBlock volume file block ↔
    volume.start ≤ block ∧ FileCluster file ((block - volume.start) / volume.blocksPerCluster) := by
  have low (lcn : Nat) (behind : volume.start ≤ block) :
      volume.blockOf lcn ≤ block ↔ lcn ≤ (block - volume.start) / volume.blocksPerCluster := by
    rw [Nat.le_div_iff_mul_le volume.positive, Volume.blockOf]
    omega
  have high (lcn : Nat) (behind : volume.start ≤ block) :
      block < volume.blockOf lcn ↔ (block - volume.start) / volume.blocksPerCluster < lcn := by
    rw [Nat.div_lt_iff_lt_mul volume.positive, Volume.blockOf]
    omega
  constructor
  · rintro ⟨extent, member, lcn, placed, above, below⟩
    have behind : volume.start ≤ block := Nat.le_trans (Nat.le_add_right _ _) above
    exact ⟨behind, extent, member, lcn, placed, (low lcn behind).mp above, (high _ behind).mp below⟩
  · rintro ⟨behind, extent, member, lcn, placed, above, below⟩
    exact ⟨extent, member, lcn, placed, (low lcn behind).mpr above, (high _ behind).mpr below⟩

/-- A cluster between is met at its first block, or at the first block of all. -/
theorem clustersOwned_iff {volume : Volume} {file : List Extent} (ordered : first ≤ last) :
    (∀ block, first ≤ block → block ≤ last → FileBlock volume file block) ↔
      ClustersOwned volume file first last := by
  constructor
  · intro blocks
    have behind := ((fileBlock_iff first).mp (blocks first (Nat.le_refl _) ordered)).1
    refine ⟨behind, fun cluster above below => ?_⟩
    have start := (Nat.le_div_iff_mul_le volume.positive).mp below
    have block := blocks (max first (volume.start + cluster * volume.blocksPerCluster)) (Nat.le_max_left _ _) (by omega)
    have here : (max first (volume.start + cluster * volume.blocksPerCluster) - volume.start) /
        volume.blocksPerCluster = cluster := by
      obtain early | late := Nat.le_total first (volume.start + cluster * volume.blocksPerCluster)
      · rw [Nat.max_eq_right early, Nat.add_sub_cancel_left, Nat.mul_div_cancel _ volume.positive]
      · rw [Nat.max_eq_left late]
        exact Nat.le_antisymm above ((Nat.le_div_iff_mul_le volume.positive).mpr (by omega))
    exact here ▸ ((fileBlock_iff _).mp block).2
  · intro owned block low high
    have behind := owned.behind
    exact (fileBlock_iff block).mpr ⟨Nat.le_trans behind low, owned.owned _ (Nat.div_le_div_right (by omega))
      (Nat.div_le_div_right (by omega))⟩

theorem recordedLba_toNat (out : RetrievalPointers) (i : Nat) :
    (recordedLba out i).toNat = ((out.lcn 0).toNat + i) % 2 ^ 32 := by
  have start : partitionStartLba + out.lcn 0 = out.lcn 0 := BitVec.zero_add (out.lcn 0)
  rw [recordedLba, start, BitVec.toNat_setWidth, BitVec.toNat_add, BitVec.toNat_ofNat]
  omega

theorem recorded_blocks_iff {volume : Volume} {file : List Extent} {requests : DumpRequests} :
    (∀ i < 32, FileBlock volume file (recordedLba requests.retrievalPointers.2 i).toNat) ↔
      if firstNumber requests + 32 ≤ 2 ^ 32 then
        ClustersOwned volume file (firstNumber requests) (firstNumber requests + 31)
      else ClustersOwned volume file (firstNumber requests) (2 ^ 32 - 1) ∧
        ClustersOwned volume file 0 (firstNumber requests + 31 - 2 ^ 32) := by
  have number (i : Nat) : (recordedLba requests.retrievalPointers.2 i).toNat = (firstNumber requests + i) % 2 ^ 32 := by
    rw [recordedLba_toNat, firstNumber]
    omega
  have less : firstNumber requests < 2 ^ 32 := Nat.mod_lt _ (by decide)
  simp only [number]
  split
  next fits =>
    rw [← clustersOwned_iff (by omega)]
    constructor
    · intro blocks block low high
      have recorded := blocks (block - firstNumber requests) (by omega)
      rwa [Nat.mod_eq_of_lt (by omega), Nat.add_sub_cancel' low] at recorded
    · intro blocks i few
      exact blocks _ (by omega) (by omega)
  next wraps =>
    rw [← clustersOwned_iff (by omega), ← clustersOwned_iff (by omega)]
    constructor
    · intro blocks
      refine ⟨fun block low high => ?_, fun block _ high => ?_⟩
      · have recorded := blocks (block - firstNumber requests) (by omega)
        rwa [Nat.mod_eq_of_lt (by omega), Nat.add_sub_cancel' low] at recorded
      · have recorded := blocks (block + 2 ^ 32 - firstNumber requests) (by omega)
        rwa [show (firstNumber requests + (block + 2 ^ 32 - firstNumber requests)) % 2 ^ 32 = block by omega] at recorded
    · rintro ⟨before, after⟩ i few
      by_cases inside : firstNumber requests + i < 2 ^ 32
      · exact before _ (by omega) (by omega)
      · exact after _ (Nat.zero_le _) (by omega)

theorem recordedLba_injective (out : RetrievalPointers) {i j : Nat} (first : i < 32) (second : j < 32)
    (same : recordedLba out i = recordedLba out j) : i = j := by
  have numbers := congrArg BitVec.toNat same
  rw [recordedLba_toNat, recordedLba_toNat] at numbers
  omega

theorem recorded_nodup (out : RetrievalPointers) : ((range 32).map (recordedLba out)).Nodup :=
  nodup_range.map_on fun _ first _ second same =>
    recordedLba_injective out (mem_range.mp first) (mem_range.mp second) same

theorem obioInitializeDumpSystem_cases (requests : DumpRequests) :
    ((veaSuccess requests.createFile = false ∨ requests.outBuffer = false ∨
        requests.retrievalPointers.2.extentCount = 0) ∧
      (obioInitializeDumpSystem requests dumpStart).armed = false) ∨
    ((veaSuccess requests.createFile = true ∧ requests.outBuffer = true ∧
        requests.retrievalPointers.2.extentCount ≠ 0) ∧
      (obioInitializeDumpSystem requests dumpStart).armed = true ∧
      (obioInitializeDumpSystem requests dumpStart).lbaBlockMap.take
          (obioInitializeDumpSystem requests dumpStart).lbaBlockCount =
        (range 32).map (recordedLba requests.retrievalPointers.2)) := by
  rw [obioInitializeDumpSystem]
  cases created : veaSuccess requests.createFile with
  | false => exact Or.inl ⟨Or.inl rfl, rfl⟩
  | true =>
    cases allocated : requests.outBuffer with
    | false => exact Or.inl ⟨Or.inr (Or.inl rfl), rfl⟩
    | true =>
      by_cases none : requests.retrievalPointers.2.extentCount = 0
      · have nothing : ¬ 0 < requests.retrievalPointers.2.extentCount := by
          rw [none]
          exact BitVec.lt_irrefl 0
        refine Or.inl ⟨Or.inr (Or.inr none), ?_⟩
        simp only [Bool.not_true, Bool.false_eq_true, if_false, if_neg nothing, obioGetDumpRoutine]
        cases veaSuccess requests.dumpRoutine.1 <;> rfl
      · have something : 0 < requests.retrievalPointers.2.extentCount :=
          BitVec.lt_def.mpr (Nat.pos_of_ne_zero fun zero => none (BitVec.eq_of_toNat_eq zero))
        have whole : ((range 32).map (recordedLba requests.retrievalPointers.2)).take 32 =
            (range 32).map (recordedLba requests.retrievalPointers.2) :=
          take_of_length_le (Nat.le_of_eq (by rw [length_map, length_range]))
        refine Or.inr ⟨⟨rfl, rfl, none⟩, ?_⟩
        simp only [Bool.not_true, Bool.false_eq_true, if_false, if_pos something, obioGetDumpRoutine]
        cases veaSuccess requests.dumpRoutine.1 <;> exact ⟨rfl, whole⟩

/-- The dump is prepared right exactly when nothing is recorded or the file owns the clusters of the
blocks that its first cluster's number stands for. -/
theorem obioInitializeDumpSystem_right_iff (volume : Volume) (file : List Extent) (requests : DumpRequests) :
    DumpRight volume file (obioInitializeDumpSystem requests dumpStart) ↔ DumpClean volume file requests := by
  obtain ⟨idle, unarmed⟩ | ⟨⟨created, allocated, extents⟩, armed, recorded⟩ :=
    obioInitializeDumpSystem_cases requests
  · constructor
    · intro _
      obtain created | allocated | extents := idle
      · exact Or.inl created
      · exact Or.inr (Or.inl allocated)
      · exact Or.inr (Or.inr (Or.inl extents))
    · intro _
      constructor
      · intro armed
        rw [unarmed] at armed
        cases armed
      · intro armed
        rw [unarmed] at armed
        cases armed
  · constructor
    · intro right
      refine Or.inr (Or.inr (Or.inr (recorded_blocks_iff.mp fun i few => ?_)))
      apply right.inside armed
      rw [recorded]
      exact mem_map_of_mem (mem_range.mpr few)
    · intro clean
      have blocks : ∀ i < 32, FileBlock volume file (recordedLba requests.retrievalPointers.2 i).toNat := by
        obtain failed | failed | failed | blocks := clean
        · rw [created] at failed
          cases failed
        · rw [allocated] at failed
          cases failed
        · exact absurd failed extents
        · exact recorded_blocks_iff.mpr blocks
      constructor
      · intro _ lba member
        rw [recorded] at member
        obtain ⟨i, few, rfl⟩ := mem_map.mp member
        exact blocks i (mem_range.mp few)
      · intro _
        rw [recorded]
        exact ⟨recorded_nodup _, by rw [length_map, length_range]; rfl⟩

/-- A file of one extent, which the query reports, on a volume whose clusters are not the disk's
blocks: the dump is prepared right only where the extent starts with cluster 0. -/
theorem dumpClean_one_extent {volume : Volume} {requests : DumpRequests} (few : lcn + 32 ≤ 2 ^ 32)
    (created : veaSuccess requests.createFile = true) (allocated : requests.outBuffer = true)
    (extents : requests.retrievalPointers.2.extentCount ≠ 0)
    (reported : (requests.retrievalPointers.2.lcn 0).toNat = lcn) :
    DumpClean volume [⟨some lcn, clusters⟩] requests ↔ volume.start = 0 ∧
      (lcn = 0 ∨ volume.blocksPerCluster = 1) ∧ 31 / volume.blocksPerCluster < clusters := by
  have number : firstNumber requests = lcn := by
    rw [firstNumber, reported]
    omega
  have positive := volume.positive
  have one (k : Nat) : FileCluster [⟨some lcn, clusters⟩] k ↔ lcn ≤ k ∧ k < lcn + clusters := by
    simp [FileCluster]
  rw [DumpClean, created, allocated, number, if_pos few]
  simp only [Bool.true_eq_false, extents, false_or]
  constructor
  · rintro ⟨behind, owned⟩
    have shorter := Nat.div_le_self (lcn - volume.start) volume.blocksPerCluster
    have low := ((one _).mp (owned _ (Nat.le_refl _) (Nat.div_le_div_right (by omega)))).1
    have high := ((one _).mp (owned _ (Nat.div_le_div_right (by omega)) (Nat.le_refl _))).2
    have start : volume.start = 0 := by omega
    rw [start, Nat.sub_zero] at low high
    rcases Nat.eq_zero_or_pos lcn with rfl | later
    · exact ⟨start, .inl rfl, by simpa using high⟩
    · have single : volume.blocksPerCluster = 1 := by
        by_contra several
        have less := Nat.div_lt_self later (show 1 < volume.blocksPerCluster by omega)
        omega
      rw [single, Nat.div_one] at high
      exact ⟨start, .inr single, by rw [single, Nat.div_one]; omega⟩
  · rintro ⟨start, first, long⟩
    refine ⟨by omega, fun cluster above below => (one cluster).mpr ?_⟩
    rw [start, Nat.sub_zero] at above below
    rcases first with rfl | single
    · rw [Nat.zero_add] at below
      omega
    · rw [single, Nat.div_one] at above below long
      omega

end Volumes

/-- A volume in a partition, with a reserved file of one extent, whose query succeeds. -/
def partitionVolume : Volume := ⟨2048, 32, 8, by decide⟩

def reservedFile : DumpRequests :=
  ⟨0, true, (0, ⟨1, 0, fun _ => 4, fun _ => 100⟩), (0, ⟨1, 1⟩)⟩

theorem obioInitializeDumpSystem_other_blocks :
    ¬ DumpRight partitionVolume [⟨some 100, 4⟩] (obioInitializeDumpSystem reservedFile dumpStart) := by
  intro right
  obtain ⟨extent, member, lcn, same, low, -⟩ := right.inside rfl 100 (by decide)
  obtain rfl := mem_singleton.mp member
  obtain rfl := Option.some.inj same
  exact absurd low (by decide)

end VeaOS.Triage
