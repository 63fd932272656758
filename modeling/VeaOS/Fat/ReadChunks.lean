import VeaOS.Fat.FileRead
import VeaOS.Foundation.PackedBits
import Mathlib.Data.Nat.Prime.Basic

/-! What a read stores, chunk by chunk, and when those are the bytes of the file. A chunk lies
in one cluster of the file. -/
namespace VeaOS.Fat
open Foundation

structure ReadAnswers.Succeeds (answers : ReadAnswers) : Prop where
  next : ∀ index, answers.nextFails index = none
  bounce : ∀ index, answers.bounceAllocated index = true
  request : ∀ index, answers.requestBuilt index = true
  read : ∀ index, answers.readFails index = none

section Chunks
variable (vcb : Vcb) (chain : List Nat) (byteOffset count : Nat)

/-- Where in the file the chunk of a cluster begins and ends. -/
def chunkStart (k : Nat) : Nat := max byteOffset (k * vcb.clusterSize)

def chunkEnd (k : Nat) : Nat := min (byteOffset + count) ((k + 1) * vcb.clusterSize)

def chunkPlace (k : Nat) : Nat :=
  vcb.clusterToLba (chain.getD k 0) * vcb.bytesPerSector + (chunkStart vcb byteOffset k - k * vcb.clusterSize)

/-- What the read stores at a place of the caller's buffer. -/
def storedByte (disk : Disk) (answers : ReadAnswers) (i : Nat) : Byte :=
  let k := (byteOffset + i) / vcb.clusterSize
  chunkSource vcb disk byteOffset (chunkEnd vcb byteOffset count k - chunkStart vcb byteOffset k)
    (chunkPlace vcb chain byteOffset k) (answers.poolResidue k) (byteOffset + i - chunkStart vcb byteOffset k)

structure AtChunk (disk : Disk) (answers : ReadAnswers) (userBuffer : Nat → Byte) (k : Nat) (state : ReadState) :
    Prop where
  inside : k < chain.length
  cluster : state.currentCluster = chain.getD k 0
  index : state.index = k
  place : byteOffset + state.bytesRead = chunkStart vcb byteOffset k
  low : k * vcb.clusterSize ≤ chunkStart vcb byteOffset k
  high : chunkStart vcb byteOffset k < (k + 1) * vcb.clusterSize
  offset : state.offsetInFirstCluster = chunkStart vcb byteOffset k - k * vcb.clusterSize
  buffer : ∀ i, state.userBuffer i =
    if i < state.bytesRead then storedByte vcb chain byteOffset count disk answers i else userBuffer i

end Chunks

section Loop
variable {vcb : Vcb} {chain : List Nat} {byteOffset count : Nat} {disk : Disk} {answers : ReadAnswers}
  {userBuffer : Nat → Byte} {firstCluster fileSize k : Nat} {state : ReadState} {ccb : Bool}

theorem Vcb.Readable.clusterSize_pos (readable : vcb.Readable) : 0 < vcb.clusterSize :=
  Nat.mul_pos readable.sector readable.cluster

theorem Vcb.Readable.sectorSize (readable : vcb.Readable) : readSectorSize vcb = vcb.bytesPerSector :=
  if_neg readable.sector.ne'

theorem FileChain.member (file : FileChain vcb disk chain firstCluster fileSize) (readable : vcb.Readable)
    (inside : k < chain.length) : isEof (chain.getD k 0) = false ∧ 2 ≤ chain.getD k 0 := by
  have member : chain.getD k 0 ∈ chain := by
    rw [List.getD_eq_getElem _ _ inside]
    exact List.getElem_mem inside
  obtain ⟨two, known⟩ := file.known _ member
  have numbers := readable.numbers
  refine ⟨?_, two⟩
  rw [isEof, decide_eq_false_iff_not]
  omega

theorem FileChain.link (file : FileChain vcb disk chain firstCluster fileSize) (inside : k + 1 < chain.length) :
    vcb.next disk (chain.getD k 0) = chain.getD (k + 1) 0 := by
  rw [List.getD_eq_getElem _ _ inside, List.getD_eq_getElem _ _ (Nat.lt_of_succ_lt inside)]
  exact List.isChain_iff_getElem.mp file.links k inside

section
variable (chunk : AtChunk vcb chain byteOffset count disk answers userBuffer k state)
include chunk

theorem AtChunk.size :
    state.chunkSize vcb count = chunkEnd vcb byteOffset count k - chunkStart vcb byteOffset k := by
  have place := chunk.place
  have low := chunk.low
  rw [ReadState.chunkSize, chunk.offset, chunkEnd]
  rw [Nat.succ_mul]
  omega

theorem AtChunk.volume : state.volumeByteOffset vcb = chunkPlace vcb chain byteOffset k := by
  rw [ReadState.volumeByteOffset, chunk.cluster, chunk.offset, chunkPlace]

theorem AtChunk.stored (behind : state.bytesRead ≤ i)
    (below : i < state.bytesRead + state.chunkSize vcb count) :
    storedByte vcb chain byteOffset count disk answers i =
      chunkSource vcb disk byteOffset (state.chunkSize vcb count) (state.volumeByteOffset vcb)
        (answers.poolResidue state.index) (i - state.bytesRead) := by
  have place := chunk.place
  have low := chunk.low
  have size := chunk.size
  have ends : chunkEnd vcb byteOffset count k ≤ (k + 1) * vcb.clusterSize := Nat.min_le_right _ _
  have here : (byteOffset + i) / vcb.clusterSize = k :=
    Nat.div_eq_of_lt_le (by omega) (by omega)
  have offset : byteOffset + i - chunkStart vcb byteOffset k = i - state.bytesRead := by omega
  rw [storedByte, here, offset, size, chunk.volume, chunk.index]

theorem AtChunk.copied (i : Nat) : (state.readChunk vcb disk answers byteOffset count).userBuffer i =
      if i < state.bytesRead + state.chunkSize vcb count then storedByte vcb chain byteOffset count disk answers i
      else userBuffer i := by
  rw [ReadState.readChunk]
  dsimp only
  rw [copyChunk]
  by_cases before : i < state.bytesRead
  · rw [if_neg (by omega), if_pos (by omega), chunk.buffer, if_pos before]
  · by_cases below : i < state.bytesRead + state.chunkSize vcb count
    · rw [if_pos ⟨by omega, below⟩, if_pos below, chunk.stored (by omega) below]
    · rw [if_neg (by omega), if_neg below, chunk.buffer, if_neg before]

theorem AtChunk.following (readable : vcb.Readable) (file : FileChain vcb disk chain firstCluster fileSize)
    (fits : byteOffset + count ≤ fileSize) (more : state.bytesRead + state.chunkSize vcb count < count) :
    AtChunk vcb chain byteOffset count disk answers userBuffer (k + 1)
      { state.readChunk vcb disk answers byteOffset count with
        currentCluster := vcb.next disk state.currentCluster, index := state.index + 1 } := by
  have place := chunk.place
  have low := chunk.low
  have high := chunk.high
  have cluster := readable.clusterSize_pos
  have size := chunk.size
  have room := file.room
  have next : (k + 1) * vcb.clusterSize = k * vcb.clusterSize + vcb.clusterSize := Nat.succ_mul ..
  have next' : (k + 1 + 1) * vcb.clusterSize = (k + 1) * vcb.clusterSize + vcb.clusterSize := Nat.succ_mul ..
  have ends : byteOffset + (state.bytesRead + state.chunkSize vcb count) = (k + 1) * vcb.clusterSize := by
    rw [chunkEnd] at size
    omega
  have start : chunkStart vcb byteOffset (k + 1) = (k + 1) * vcb.clusterSize := by
    rw [chunkStart]
    omega
  have inside : k + 1 < chain.length := by
    by_contra beyond
    have length : chain.length * vcb.clusterSize ≤ (k + 1) * vcb.clusterSize := Nat.mul_le_mul_right _ (by omega)
    omega
  exact {
    inside := inside
    cluster := (congrArg (vcb.next disk) chunk.cluster).trans (file.link inside)
    index := congrArg (· + 1) chunk.index
    place := ends.trans start.symm
    low := start.ge
    high := by rw [start]; omega
    offset := by rw [start, Nat.sub_self]; rfl
    buffer := chunk.copied }

theorem AtChunk.step (readable : vcb.Readable) (succeeds : answers.Succeeds)
    (file : FileChain vcb disk chain firstCluster fileSize) (fits : byteOffset + count ≤ fileSize) :
    readStep vcb disk answers byteOffset count state = .next
      (if state.bytesRead + state.chunkSize vcb count < count then
        { state.readChunk vcb disk answers byteOffset count with
          currentCluster := vcb.next disk state.currentCluster, index := state.index + 1 }
      else state.readChunk vcb disk answers byteOffset count) := by
  rw [readStep, succeeds.bounce, succeeds.request, succeeds.read, if_neg (fun both => by cases both.2), if_neg nofun]
  dsimp only
  have bytes : (state.readChunk vcb disk answers byteOffset count).bytesRead =
      state.bytesRead + state.chunkSize vcb count := rfl
  have kept : (state.readChunk vcb disk answers byteOffset count).currentCluster = state.currentCluster := rfl
  have index : (state.readChunk vcb disk answers byteOffset count).index = state.index := rfl
  rw [bytes, kept, index, succeeds.next]
  by_cases more : state.bytesRead + state.chunkSize vcb count < count
  · have there := chunk.following readable file fits more
    obtain ⟨whole, two⟩ := file.member readable there.inside
    have cluster : vcb.next disk state.currentCluster = chain.getD (k + 1) 0 := there.cluster
    rw [if_pos more, if_pos more, cluster, whole]
    exact if_neg fun stops => stops.elim nofun fun low => absurd low (Nat.not_lt.mpr two)
  · rw [if_neg more, if_neg more]

theorem AtChunk.positive (unfinished : state.bytesRead < count) : 0 < state.chunkSize vcb count := by
  have place := chunk.place
  have high := chunk.high
  have size := chunk.size
  rw [chunkEnd] at size
  omega

end

theorem readLoop_reads (readable : vcb.Readable) (succeeds : answers.Succeeds)
    (file : FileChain vcb disk chain firstCluster fileSize) (fits : byteOffset + count ≤ fileSize)
    (chunk : AtChunk vcb chain byteOffset count disk answers userBuffer k state) (rounds : Nat)
    (enough : count - state.bytesRead < rounds) (within : state.bytesRead ≤ count) :
    ∃ result, readLoop vcb disk answers byteOffset count ccb rounds .success state = some result ∧
      result.status = .success ∧ result.information = some count ∧
      ∀ i, result.userBuffer i =
        if i < count then storedByte vcb chain byteOffset count disk answers i else userBuffer i := by
  induction rounds generalizing k state with
  | zero => exact absurd enough (Nat.not_lt_zero _)
  | succ rounds ih =>
    by_cases unfinished : state.bytesRead < count
    · obtain ⟨whole, two⟩ := file.member readable chunk.inside
      rw [← chunk.cluster] at whole two
      have positive := chunk.positive unfinished
      rw [readLoop, if_pos ⟨unfinished, whole, two⟩, chunk.step readable succeeds file fits]
      dsimp only
      by_cases more : state.bytesRead + state.chunkSize vcb count < count
      · rw [if_pos more]
        exact ih (chunk.following readable file fits more) (by dsimp only [ReadState.readChunk]; omega)
          (by dsimp only [ReadState.readChunk]; omega)
      · have all : state.bytesRead + state.chunkSize vcb count = count := by
          have size : state.chunkSize vcb count ≤ count - state.bytesRead := Nat.min_le_left _ _
          omega
        obtain ⟨rounds, rfl⟩ : ∃ fewer, rounds = fewer + 1 := ⟨rounds - 1, by omega⟩
        rw [if_neg more, readLoop, if_neg (fun goesOn => more goesOn.1)]
        refine ⟨_, rfl, ite_self _, congrArg some all, fun i => ?_⟩
        have copied := chunk.copied i
        rwa [all] at copied
    · have all : state.bytesRead = count := by omega
      rw [readLoop, if_neg (fun goesOn => unfinished goesOn.1)]
      refine ⟨_, rfl, ite_self _, congrArg some all, fun i => ?_⟩
      have buffer := chunk.buffer i
      rwa [all] at buffer

theorem skipClusters_chain (readable : vcb.Readable) (succeeds : answers.Succeeds)
    (file : FileChain vcb disk chain firstCluster fileSize) (skip : Nat) (inside : k + skip < chain.length) :
    skipClusters vcb disk answers skip k (chain.getD k 0) = .ok (chain.getD (k + skip) 0) := by
  induction skip generalizing k with
  | zero => rfl
  | succ skip ih =>
    rw [skipClusters, if_pos (file.member readable (by omega)), succeeds.next, file.link (by omega)]
    dsimp only
    rw [ih (by omega), Nat.add_right_comm, Nat.add_assoc]

theorem fatpReadFile_stores (readable : vcb.Readable) (succeeds : answers.Succeeds)
    (file : FileChain vcb disk chain firstCluster fileSize) (inside : byteOffset < fileSize) (length : Nat) :
    ∃ result, fatpReadFile vcb disk answers ccb firstCluster fileSize byteOffset length userBuffer = some result ∧
      result.status = .success ∧ result.information = some (min length (fileSize - byteOffset)) ∧
      ∀ i, result.userBuffer i =
        if i < min length (fileSize - byteOffset) then
          storedByte vcb chain byteOffset (min length (fileSize - byteOffset)) disk answers i
        else userBuffer i := by
  have cluster := readable.clusterSize_pos
  have room := file.room
  have below : byteOffset / vcb.clusterSize < chain.length :=
    (Nat.div_lt_iff_lt_mul cluster).mpr (by omega)
  have first : chain.getD 0 0 = firstCluster := by
    rw [List.getD_eq_getElem?_getD, ← List.head?_eq_getElem?, file.first]
    rfl
  have count : (if fileSize < byteOffset + length then fileSize - byteOffset else length) =
      min length (fileSize - byteOffset) := by
    split <;> omega
  obtain ⟨begins, two⟩ := file.member readable (Nat.zero_lt_of_lt below)
  obtain ⟨whole, two'⟩ := file.member readable below
  rw [first] at begins two
  have skipped := skipClusters_chain readable succeeds file (byteOffset / vcb.clusterSize) (k := 0) (by omega)
  rw [first, Nat.zero_add] at skipped
  have divided := Nat.div_add_mod' byteOffset vcb.clusterSize
  have remainder := Nat.mod_lt byteOffset cluster
  have next : (byteOffset / vcb.clusterSize + 1) * vcb.clusterSize =
      byteOffset / vcb.clusterSize * vcb.clusterSize + vcb.clusterSize := Nat.succ_mul ..
  have start : chunkStart vcb byteOffset (byteOffset / vcb.clusterSize) = byteOffset := by
    rw [chunkStart]
    omega
  rw [fatpReadFile, begins]
  dsimp only
  rw [if_neg (by simp only [Bool.false_eq_true, or_false]; omega), if_neg (by omega), count, skipped]
  dsimp only
  rw [whole, if_neg (by simp only [Bool.false_eq_true, false_or]; omega)]
  have begun : AtChunk vcb chain byteOffset (min length (fileSize - byteOffset)) disk answers userBuffer
      (byteOffset / vcb.clusterSize) ⟨chain.getD (byteOffset / vcb.clusterSize) 0, byteOffset / vcb.clusterSize, 0,
        byteOffset % vcb.clusterSize, userBuffer⟩ :=
    ⟨below, rfl, rfl, start.symm, by omega, by omega, by dsimp only; omega,
      fun i => (if_neg (Nat.not_lt_zero i)).symm⟩
  exact readLoop_reads readable succeeds file (by omega) begun _ (by dsimp only; omega) (Nat.zero_le _)

end Loop
section Exact
variable {vcb : Vcb} {chain : List Nat} {byteOffset count : Nat} {disk disk' : Disk} {answers : ReadAnswers}
  {userBuffer : Nat → Byte} {firstCluster fileSize length k i : Nat} {ccb : Bool}

/-- The chunk of a cluster, if it is bounced, is taken from where it is in the bounce buffer: the
aligned place and the offset that the whole read has in its sector make the place of the chunk,
and the chunk ends inside the buffer. -/
def BouncesRight (vcb : Vcb) (chain : List Nat) (byteOffset count k : Nat) : Prop :=
  let size := chunkEnd vcb byteOffset count k - chunkStart vcb byteOffset k
  let place := chunkPlace vcb chain byteOffset k
  UsesBounceBuffer vcb size place →
    alignDownBy place (readSectorSize vcb) + byteOffset % readSectorSize vcb = place ∧
      byteOffset % readSectorSize vcb + size ≤ diskReadLength vcb size place

/-- The place in the file is one of the chunk of a cluster. -/
structure InChunk (vcb : Vcb) (byteOffset count k i : Nat) : Prop where
  low : chunkStart vcb byteOffset k ≤ byteOffset + i
  high : byteOffset + i < chunkEnd vcb byteOffset count k

theorem InChunk.cluster (within : InChunk vcb byteOffset count k i) : (byteOffset + i) / vcb.clusterSize = k := by
  have start : k * vcb.clusterSize ≤ chunkStart vcb byteOffset k := Nat.le_max_right _ _
  have ends : chunkEnd vcb byteOffset count k ≤ (k + 1) * vcb.clusterSize := Nat.min_le_right _ _
  exact Nat.div_eq_of_lt_le (start.trans within.low) (within.high.trans_le ends)

theorem inChunk_of_lt (cluster : 0 < vcb.clusterSize) (read : i < count) :
    InChunk vcb byteOffset count ((byteOffset + i) / vcb.clusterSize) i := by
  have divided := Nat.div_add_mod' (byteOffset + i) vcb.clusterSize
  have remainder := Nat.mod_lt (byteOffset + i) cluster
  have next : ((byteOffset + i) / vcb.clusterSize + 1) * vcb.clusterSize =
      (byteOffset + i) / vcb.clusterSize * vcb.clusterSize + vcb.clusterSize := Nat.succ_mul ..
  constructor
  · rw [chunkStart]
    omega
  · rw [chunkEnd]
    omega

section
variable (within : InChunk vcb byteOffset count k i)
include within

theorem InChunk.read : i < count := by
  have high := within.high
  rw [chunkEnd] at high
  omega

theorem InChunk.fileByte (disk : Disk) : Fat.fileByte vcb disk chain (byteOffset + i) =
      vcb.byteAt disk (chunkPlace vcb chain byteOffset k + (byteOffset + i - chunkStart vcb byteOffset k)) := by
  have start : k * vcb.clusterSize ≤ chunkStart vcb byteOffset k := Nat.le_max_right _ _
  have low := within.low
  have divided := Nat.div_add_mod' (byteOffset + i) vcb.clusterSize
  rw [within.cluster] at divided
  rw [Fat.fileByte, within.cluster, chunkPlace]
  congr 1
  omega

theorem InChunk.storedByte (disk : Disk) (answers : ReadAnswers) :
    Fat.storedByte vcb chain byteOffset count disk answers i =
      chunkSource vcb disk byteOffset (chunkEnd vcb byteOffset count k - chunkStart vcb byteOffset k)
        (chunkPlace vcb chain byteOffset k) (answers.poolResidue k)
        (byteOffset + i - chunkStart vcb byteOffset k) := by
  rw [Fat.storedByte, within.cluster]

theorem InChunk.stored (right : BouncesRight vcb chain byteOffset count k) (disk : Disk)
    (answers : ReadAnswers) :
    Fat.storedByte vcb chain byteOffset count disk answers i = Fat.fileByte vcb disk chain (byteOffset + i) := by
  rw [within.storedByte, within.fileByte, chunkSource]
  split
  · next bounced =>
      obtain ⟨place, inside⟩ := right bounced
      have high := within.high
      have low := within.low
      rw [bounceBuffer, if_pos (by omega), ← Nat.add_assoc, place]
  · rfl

end

theorem byteAt_update (disk : Disk) (place : Nat) (value : Byte) :
    ∃ disk' : Disk, (∀ lba, lba < place / vcb.bytesPerSector → disk' lba = disk lba) ∧
      vcb.byteAt disk' place = value ∧ ∀ other, other ≠ place → vcb.byteAt disk' other = vcb.byteAt disk other := by
  refine ⟨fun lba j => if lba = place / vcb.bytesPerSector ∧ j = place % vcb.bytesPerSector then value else disk lba j,
    fun lba before => ?_, if_pos ⟨rfl, rfl⟩, fun other differs => if_neg fun same => differs ?_⟩
  · funext j
    exact if_neg fun here => before.ne here.1
  · rw [← Nat.div_add_mod other vcb.bytesPerSector, same.1, same.2, Nat.div_add_mod]

theorem exists_foreign (within : chunkStart vcb byteOffset k < chunkEnd vcb byteOffset count k)
    (wrong : ¬ BouncesRight vcb chain byteOffset count k) (disk : Disk) (answers : ReadAnswers) :
    ∃ i, InChunk vcb byteOffset count k i ∧ ∀ disk' : Disk,
      (∀ other, other ≠ chunkPlace vcb chain byteOffset k + (byteOffset + i - chunkStart vcb byteOffset k) →
        vcb.byteAt disk' other = vcb.byteAt disk other) →
      storedByte vcb chain byteOffset count disk' answers i = storedByte vcb chain byteOffset count disk answers i := by
  have start : byteOffset ≤ chunkStart vcb byteOffset k := Nat.le_max_left _ _
  have source (disk : Disk) (i : Nat) (here : InChunk vcb byteOffset count k i) (bounced : UsesBounceBuffer vcb
      (chunkEnd vcb byteOffset count k - chunkStart vcb byteOffset k) (chunkPlace vcb chain byteOffset k)) :
      storedByte vcb chain byteOffset count disk answers i =
        bounceBuffer vcb disk (chunkEnd vcb byteOffset count k - chunkStart vcb byteOffset k)
          (chunkPlace vcb chain byteOffset k) (answers.poolResidue k)
          (byteOffset % readSectorSize vcb + (byteOffset + i - chunkStart vcb byteOffset k)) := by
    rw [here.storedByte, chunkSource, if_pos bounced]
  rw [BouncesRight] at wrong
  obtain ⟨bounced, wrong⟩ := Classical.not_imp.mp wrong
  by_cases place : alignDownBy (chunkPlace vcb chain byteOffset k) (readSectorSize vcb) +
      byteOffset % readSectorSize vcb = chunkPlace vcb chain byteOffset k
  · have past := Nat.lt_of_not_le fun inside => wrong ⟨place, inside⟩
    have last : InChunk vcb byteOffset count k (chunkEnd vcb byteOffset count k - 1 - byteOffset) := ⟨by omega, by omega⟩
    refine ⟨_, last, fun disk' _ => ?_⟩
    rw [source disk' _ last bounced, source disk _ last bounced, bounceBuffer, bounceBuffer,
      if_neg (by omega), if_neg (by omega)]
  · have first : InChunk vcb byteOffset count k (chunkStart vcb byteOffset k - byteOffset) := ⟨by omega, by omega⟩
    have begins : byteOffset + (chunkStart vcb byteOffset k - byteOffset) - chunkStart vcb byteOffset k = 0 := by omega
    refine ⟨_, first, fun disk' others => ?_⟩
    rw [source disk' _ first bounced, source disk _ first bounced, bounceBuffer, bounceBuffer, begins]
    rw [begins] at others
    split
    · exact others _ place
    · rfl

theorem stored_iff (readable : vcb.Readable) (disk : Disk) (answers : ReadAnswers) :
    (∀ disk' : Disk, (∀ lba, lba < vcb.dataStartLba → disk' lba = disk lba) → ∀ i, i < count →
      storedByte vcb chain byteOffset count disk' answers i = fileByte vcb disk' chain (byteOffset + i)) ↔
    ∀ k, chunkStart vcb byteOffset k < chunkEnd vcb byteOffset count k → BouncesRight vcb chain byteOffset count k := by
  constructor
  · intro exact_ k within
    by_contra wrong
    obtain ⟨i, here, foreign⟩ := exists_foreign within wrong disk answers
    obtain ⟨disk', front, changed, others⟩ := @byteAt_update vcb disk
      (chunkPlace vcb chain byteOffset k + (byteOffset + i - chunkStart vcb byteOffset k))
      (storedByte vcb chain byteOffset count disk answers i + 1)
    have data : vcb.dataStartLba ≤ (chunkPlace vcb chain byteOffset k +
        (byteOffset + i - chunkStart vcb byteOffset k)) / vcb.bytesPerSector := by
      rw [Nat.le_div_iff_mul_le readable.sector, chunkPlace, Nat.add_assoc]
      exact (Nat.mul_le_mul_right _ (Nat.le_add_right _ _)).trans (Nat.le_add_right _ _)
    have same := exact_ disk' (fun lba before => front lba (before.trans_le data)) i here.read
    rw [foreign disk' others, here.fileByte, changed] at same
    have other : (1 : Byte) ≠ 0 := by decide
    exact other (by simpa using same.symm)
  · intro right disk' _ i read
    have within := @inChunk_of_lt _ byteOffset _ _ readable.clusterSize_pos read
    exact within.stored (right _ (within.low.trans_lt within.high)) disk' answers

theorem Vcb.Readable.next_front (readable : vcb.Readable)
    (front : ∀ lba, lba < vcb.dataStartLba → disk' lba = disk lba) {cluster : Nat}
    (known : cluster < vcb.totalClusters + 2) : vcb.next disk' cluster = vcb.next disk cluster := by
  have room := readable.room
  have ordered := readable.ordered
  have sector : cluster * 4 / vcb.bytesPerSector < vcb.fatSizeSectors :=
    (Nat.div_lt_iff_lt_mul readable.sector).mpr (by omega)
  have place := @Vcb.entryPointer_eq _ 0 _ readable.toWellFormed known readable.tables
  rw [Nat.zero_mul, Nat.add_zero] at place
  have bytes : disk'.readBytes (vcb.entryPointer 0 cluster) 4 = disk.readBytes (vcb.entryPointer 0 cluster) 4 := by
    refine Memory.readBytes_congr fun lba j spans => ?_
    rw [place] at spans
    rw [front lba (spans.1.trans_lt (by dsimp only; omega))]
  rw [Vcb.next, Vcb.next, Vcb.entry, Vcb.entry, bytes]

theorem FileChain.kept (file : FileChain vcb disk chain firstCluster fileSize) (readable : vcb.Readable)
    (front : ∀ lba, lba < vcb.dataStartLba → disk' lba = disk lba) :
    FileChain vcb disk' chain firstCluster fileSize := by
  refine ⟨file.first, file.known, List.isChain_iff_getElem.mpr fun k inside => ?_, file.room⟩
  have known := (file.known _ (List.getElem_mem (Nat.lt_of_succ_lt inside))).2
  exact (readable.next_front front known).trans (List.isChain_iff_getElem.mp file.links k inside)

/-- What a read is to do: the bytes of the file from the offset on go into the buffer, as many as
there are and were asked for, and nothing else; behind the end of the file there is none. -/
def ReadsExactly (vcb : Vcb) (disk : Disk) (answers : ReadAnswers) (chain : List Nat) (ccb : Bool)
    (firstCluster fileSize byteOffset length : Nat) (userBuffer : Nat → Byte) : Prop :=
  ∃ result, fatpReadFile vcb disk answers ccb firstCluster fileSize byteOffset length userBuffer = some result ∧
    (fileSize ≤ byteOffset → result.status = .endOfFile ∧ result.information = some 0 ∧
      result.userBuffer = userBuffer) ∧
    (byteOffset < fileSize → result.status = .success ∧
      result.information = some (min length (fileSize - byteOffset)) ∧
      ∀ i, result.userBuffer i =
        if i < min length (fileSize - byteOffset) then fileByte vcb disk chain (byteOffset + i) else userBuffer i)

/-- A read is exact, whatever the data of the volume, just where every bounced chunk is bounced right. -/
theorem fatpReadFile_exact_iff (readable : vcb.Readable) (succeeds : answers.Succeeds)
    (file : 0 < fileSize → FileChain vcb disk chain firstCluster fileSize) :
    (∀ disk' : Disk, (∀ lba, lba < vcb.dataStartLba → disk' lba = disk lba) →
      ReadsExactly vcb disk' answers chain ccb firstCluster fileSize byteOffset length userBuffer) ↔
    (byteOffset < fileSize → ∀ k, chunkStart vcb byteOffset k <
        chunkEnd vcb byteOffset (min length (fileSize - byteOffset)) k →
      BouncesRight vcb chain byteOffset (min length (fileSize - byteOffset)) k) := by
  by_cases inside : byteOffset < fileSize
  · have kept (disk' : Disk) (front : ∀ lba, lba < vcb.dataStartLba → disk' lba = disk lba) :=
      @fatpReadFile_stores _ _ _ _ _ userBuffer _ _ ccb readable succeeds
        ((file (Nat.zero_lt_of_lt inside)).kept readable front) inside length
    rw [forall_prop_of_true inside, ← stored_iff readable disk answers]
    constructor
    · intro reads disk' front i read
      obtain ⟨result, run, -, -, stores⟩ := kept disk' front
      obtain ⟨result', run', -, exact_⟩ := reads disk' front
      obtain rfl := Option.some.inj (run.symm.trans run')
      have same := (stores i).symm.trans ((exact_ inside).2.2 i)
      rwa [if_pos read, if_pos read] at same
    · intro stored disk' front
      obtain ⟨result, run, status, information, stores⟩ := kept disk' front
      refine ⟨result, run, fun past => absurd inside (Nat.not_lt.mpr past), fun _ => ⟨status, information, fun i => ?_⟩⟩
      rw [stores i]
      split
      · next read => exact stored disk' front i read
      · rfl
  · refine ⟨fun _ => fun within => absurd within inside, fun _ disk' _ => ?_⟩
    rw [ReadsExactly, fatpReadFile]
    dsimp only
    split
    · exact ⟨_, rfl, fun _ => ⟨rfl, rfl, rfl⟩, fun within => absurd within inside⟩
    · rw [if_pos (by omega)]
      exact ⟨_, rfl, fun _ => ⟨rfl, rfl, rfl⟩, fun within => absurd within inside⟩

theorem alignDownBy_eq (power : align ∣ 4096) (size : Nat) :
    alignDownBy size align = size % 0x100000000 / align * align := by
  obtain ⟨j, small, rfl⟩ := (Nat.dvd_prime_pow Nat.prime_two (m := 12)).mp power
  have masks : ∀ j : Fin 13, ∀ i : Fin 32,
      (~~~(BitVec.ofNat 32 (2 ^ j.val) - 1)).getLsbD i = decide (j.val ≤ i.val) := by decide
  have mask := masks ⟨j, Nat.lt_succ_of_le small⟩
  have shifted := Packed.and_highMask (BitVec.ofNat 32 size) _ mask
  dsimp only at shifted
  have down := Nat.div_mul_le_self (size % 2 ^ 32) (2 ^ j)
  rw [alignDownBy, shifted, BitVec.toNat_shiftLeft, BitVec.toNat_ushiftRight, BitVec.toNat_ofNat, Nat.shiftLeft_eq,
    Nat.shiftRight_eq_div_pow]
  exact Nat.mod_eq_of_lt (down.trans_lt (Nat.mod_lt size (by decide)))

theorem chunkPlace_mod (vcb : Vcb) (chain : List Nat) (byteOffset k : Nat) :
    chunkPlace vcb chain byteOffset k % vcb.bytesPerSector = chunkStart vcb byteOffset k % vcb.bytesPerSector := by
  have start : k * vcb.clusterSize ≤ chunkStart vcb byteOffset k := Nat.le_max_right _ _
  have whole : k * vcb.clusterSize = vcb.bytesPerSector * (k * vcb.sectorsPerCluster) := by
    rw [Vcb.clusterSize]
    ac_rfl
  have split : chunkStart vcb byteOffset k =
      (chunkStart vcb byteOffset k - k * vcb.clusterSize) + vcb.bytesPerSector * (k * vcb.sectorsPerCluster) := by
    omega
  have place : chunkPlace vcb chain byteOffset k = (chunkStart vcb byteOffset k - k * vcb.clusterSize) +
      vcb.bytesPerSector * vcb.clusterToLba (chain.getD k 0) := by
    rw [chunkPlace]
    ac_rfl
  rw [place, Nat.add_mul_mod_self_left]
  conv_rhs => rw [split, Nat.add_mul_mod_self_left]

theorem bouncesRight_iff (readable : vcb.Readable) (power : vcb.bytesPerSector ∣ 4096) :
    BouncesRight vcb chain byteOffset count k ↔
      (UsesBounceBuffer vcb (chunkEnd vcb byteOffset count k - chunkStart vcb byteOffset k)
          (chunkPlace vcb chain byteOffset k) →
        chunkPlace vcb chain byteOffset k < 0x100000000 ∧
          chunkStart vcb byteOffset k % vcb.bytesPerSector = byteOffset % vcb.bytesPerSector) := by
  have sector := readable.sector
  have small := readable.buffer
  have start : k * vcb.clusterSize ≤ chunkStart vcb byteOffset k := Nat.le_max_right _ _
  have ends : chunkEnd vcb byteOffset count k ≤ (k + 1) * vcb.clusterSize := Nat.min_le_right _ _
  rw [Nat.succ_mul] at ends
  have cluster : vcb.clusterSize ≤ 4096 * 255 := Nat.mul_le_mul small readable.clusterByte
  have offset := Nat.mod_lt byteOffset sector
  have within := Nat.mod_lt (chunkPlace vcb chain byteOffset k) sector
  have divided := Nat.div_add_mod' (chunkPlace vcb chain byteOffset k) vcb.bytesPerSector
  have down := Nat.div_mul_le_self (chunkPlace vcb chain byteOffset k % 0x100000000) vcb.bytesPerSector
  rw [BouncesRight, readable.sectorSize, ← chunkPlace_mod vcb chain]
  refine imp_congr_right fun _ => ⟨fun ⟨place, _⟩ => ?_, fun ⟨low, same⟩ => ⟨?_, ?_⟩⟩
  · rw [alignDownBy_eq power] at place
    have low : chunkPlace vcb chain byteOffset k < 0x100000000 := by omega
    rw [Nat.mod_eq_of_lt low] at place
    exact ⟨low, by omega⟩
  · rw [alignDownBy_eq power, Nat.mod_eq_of_lt low]
    omega
  · rw [diskReadLength, readable.sectorSize, alignUpBy, alignDownBy_eq power, ← same]
    have few : chunkEnd vcb byteOffset count k - chunkStart vcb byteOffset k ≤ 4096 * 255 := by omega
    have word : chunkEnd vcb byteOffset count k - chunkStart vcb byteOffset k +
        chunkPlace vcb chain byteOffset k % vcb.bytesPerSector + vcb.bytesPerSector - 1 < 0x100000000 := by omega
    rw [Nat.mod_eq_of_lt word]
    have rounded := Nat.div_add_mod' (chunkEnd vcb byteOffset count k - chunkStart vcb byteOffset k +
      chunkPlace vcb chain byteOffset k % vcb.bytesPerSector + vcb.bytesPerSector - 1) vcb.bytesPerSector
    have remainder := Nat.mod_lt (chunkEnd vcb byteOffset count k - chunkStart vcb byteOffset k +
      chunkPlace vcb chain byteOffset k % vcb.bytesPerSector + vcb.bytesPerSector - 1) sector
    omega

end Exact
section Sample

/-- A volume of sectors of 512 bytes, one to a cluster. -/
def twoClusterVolume : Vcb := ⟨512, 1, 1, 1, 2, 1, 2, 3⟩

/-- Cluster 3 follows cluster 2 and is the last one; each byte of the data is its offset in its sector. -/
def twoClusterDisk : Disk := fun lba j =>
  if lba = 1 then (if j = 8 then 3 else if 12 ≤ j ∧ j < 16 then 0xFF else 0) else BitVec.ofNat 8 j

def allReadsSucceed : ReadAnswers := ⟨fun _ => none, fun _ => true, fun _ => true, fun _ => none, fun _ _ => 0⟩

theorem twoClusterVolume_readable : twoClusterVolume.Readable where
  sector := by decide
  words := by decide
  tables := by decide
  room := by decide
  entries := by decide
  sectors := by decide
  cluster := by decide
  clusterByte := by decide
  buffer := by decide
  ordered := by decide
  numbers := by decide

theorem allReadsSucceed_succeeds : allReadsSucceed.Succeeds :=
  ⟨fun _ => rfl, fun _ => rfl, fun _ => rfl, fun _ => rfl⟩

theorem twoClusterDisk_file : FileChain twoClusterVolume twoClusterDisk [2, 3] 2 600 where
  first := rfl
  known := by decide
  links := by
    have next : twoClusterVolume.next twoClusterDisk 2 = 3 := by decide +kernel
    exact .cons_cons next (.singleton 3)
  room := by decide

/-- The whole file is read exactly; the end of it goes through the bounce buffer. -/
theorem fatpReadFile_exact_whole :
    UsesBounceBuffer twoClusterVolume 88 (chunkPlace twoClusterVolume [2, 3] 0 1) ∧
    ∀ disk' : Disk, (∀ lba, lba < twoClusterVolume.dataStartLba → disk' lba = twoClusterDisk lba) →
      ReadsExactly twoClusterVolume disk' allReadsSucceed [2, 3] false 2 600 0 600 fun _ => 0 := by
  refine ⟨by decide, (fatpReadFile_exact_iff twoClusterVolume_readable allReadsSucceed_succeeds fun _ =>
    twoClusterDisk_file).mpr fun _ k chunk => ?_⟩
  have within : k * 512 < 600 := (Nat.le_max_right 0 (k * 512)).trans_lt (chunk.trans_le (Nat.min_le_left 600 _))
  obtain rfl | rfl : k = 0 ∨ k = 1 := by omega
  · exact fun _ => ⟨by decide, by decide⟩
  · exact fun _ => ⟨by decide, by decide⟩

/-- A read from byte 10 on stores byte 522 of the file where byte 512 belongs. -/
theorem fatpReadFile_shifted : twoClusterVolume.Readable ∧ allReadsSucceed.Succeeds ∧
    FileChain twoClusterVolume twoClusterDisk [2, 3] 2 600 ∧
    ¬ ReadsExactly twoClusterVolume twoClusterDisk allReadsSucceed [2, 3] false 2 600 10 590 fun _ => 0 := by
  refine ⟨twoClusterVolume_readable, allReadsSucceed_succeeds, twoClusterDisk_file, ?_⟩
  rintro ⟨result, run, -, reads⟩
  have stored : (fatpReadFile twoClusterVolume twoClusterDisk allReadsSucceed false 2 600 10 590 fun _ => 0).map (·.userBuffer 502) =
      some 10 := by decide +kernel
  have byte : fileByte twoClusterVolume twoClusterDisk [2, 3] (10 + 502) = 0 := by decide +kernel
  have right := (reads (by decide)).2.2 502
  rw [if_pos (by decide), byte] at right
  rw [run, Option.map_some, right] at stored
  cases stored

end Sample
end VeaOS.Fat
