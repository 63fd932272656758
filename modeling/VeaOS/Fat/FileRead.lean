import VeaOS.Fat.Mount

/-! The read of a file. A chunk that is not whole sectors goes through a bounce buffer, from
which the bytes are taken at the offset in the sector that the whole read has. -/
namespace VeaOS.Fat
open Foundation

/-- `ALIGN_DOWN_BY`, in the 32 bits of `ULONG_PTR`. -/
def alignDownBy (size align : Nat) : Nat := (BitVec.ofNat 32 size &&& ~~~(BitVec.ofNat 32 align - 1)).toNat

def alignUpBy (size align : Nat) : Nat := alignDownBy (size + align - 1) align

namespace Vcb

/-- A byte of the volume, by its offset from the volume's start. -/
def byteAt (vcb : Vcb) (disk : Disk) (offset : Nat) : Byte :=
  disk (offset / vcb.bytesPerSector) (offset % vcb.bytesPerSector)

/-- `BytesPerCluster`. -/
def clusterSize (vcb : Vcb) : Nat := vcb.bytesPerSector * vcb.sectorsPerCluster

/-- `FAT32_CLUSTER_TO_LBA`. -/
def clusterToLba (vcb : Vcb) (cluster : Nat) : Nat := vcb.dataStartLba + (cluster - 2) * vcb.sectorsPerCluster

end Vcb

/-- Which requests of a read fail, by the place in the file of the cluster they are made for,
and what the pool has behind a bounce buffer. -/
structure ReadAnswers where
  nextFails : Nat → Option (BitVec 32)
  bounceAllocated : Nat → Bool
  requestBuilt : Nat → Bool
  readFails : Nat → Option (BitVec 32)
  poolResidue : Nat → Nat → Byte

/-- The variables of the loop; `index` is the place of the cluster in the file. -/
structure ReadState where
  currentCluster : Nat
  index : Nat
  bytesRead : Nat
  offsetInFirstCluster : Nat
  userBuffer : Nat → Byte

/-- `Information` is not set where a buffer or a request could not be had, and
`CurrentByteOffset` is not set there and where nothing was read. -/
structure ReadResult where
  status : FatStatus
  information : Option Nat
  userBuffer : Nat → Byte
  currentByteOffset : Option Nat

/-- A round of the loop goes on, or breaks, or returns from the function. -/
inductive ReadRound where
  | next (state : ReadState)
  | broken (status : FatStatus) (state : ReadState)
  | returned (status : FatStatus) (state : ReadState)

section Model
variable (vcb : Vcb) (disk : Disk) (answers : ReadAnswers) (byteOffset bytesToRead : Nat)

def readSectorSize : Nat := if vcb.bytesPerSector = 0 then 512 else vcb.bytesPerSector

/-- The chunk is no whole number of sectors, or begins in one. -/
def UsesBounceBuffer (chunkSize volumeByteOffset : Nat) : Prop :=
  chunkSize % readSectorSize vcb ≠ 0 ∨ volumeByteOffset % readSectorSize vcb ≠ 0

instance (chunkSize volumeByteOffset : Nat) : Decidable (UsesBounceBuffer vcb chunkSize volumeByteOffset) :=
  inferInstanceAs (Decidable (_ ∨ _))

def diskReadLength (chunkSize volumeByteOffset : Nat) : Nat :=
  alignUpBy (chunkSize + volumeByteOffset % readSectorSize vcb) (readSectorSize vcb)

/-- The bounce buffer after the read of the disk, and what is behind it. -/
def bounceBuffer (chunkSize volumeByteOffset : Nat) (residue : Nat → Byte) (i : Nat) : Byte :=
  if i < diskReadLength vcb chunkSize volumeByteOffset then
    vcb.byteAt disk (alignDownBy volumeByteOffset (readSectorSize vcb) + i)
  else residue i

/-- The bytes of a chunk that the buffer of the caller gets. -/
def chunkSource (chunkSize volumeByteOffset : Nat) (residue : Nat → Byte) (i : Nat) : Byte :=
  if UsesBounceBuffer vcb chunkSize volumeByteOffset then
    bounceBuffer vcb disk chunkSize volumeByteOffset residue (byteOffset % readSectorSize vcb + i)
  else vcb.byteAt disk (volumeByteOffset + i)

def copyChunk (userBuffer : Nat → Byte) (bytesRead chunkSize : Nat) (source : Nat → Byte) (i : Nat) : Byte :=
  if bytesRead ≤ i ∧ i < bytesRead + chunkSize then source (i - bytesRead) else userBuffer i

def ReadState.chunkSize (state : ReadState) : Nat :=
  min (bytesToRead - state.bytesRead) (vcb.clusterSize - state.offsetInFirstCluster)

def ReadState.volumeByteOffset (state : ReadState) : Nat :=
  vcb.clusterToLba state.currentCluster * vcb.bytesPerSector + state.offsetInFirstCluster

def ReadState.readChunk (state : ReadState) : ReadState :=
  { state with
    bytesRead := state.bytesRead + state.chunkSize vcb bytesToRead
    offsetInFirstCluster := 0
    userBuffer := copyChunk state.userBuffer state.bytesRead (state.chunkSize vcb bytesToRead)
      (chunkSource vcb disk byteOffset (state.chunkSize vcb bytesToRead) (state.volumeByteOffset vcb)
        (answers.poolResidue state.index)) }

def readStep (state : ReadState) : ReadRound :=
  if UsesBounceBuffer vcb (state.chunkSize vcb bytesToRead) (state.volumeByteOffset vcb) ∧
      answers.bounceAllocated state.index = false then .returned .insufficientResources state
  else if answers.requestBuilt state.index = false then .returned .insufficientResources state
  else match answers.readFails state.index with
    | some status => .broken (.failed status) state
    | none =>
      let state := state.readChunk vcb disk answers byteOffset bytesToRead
      if state.bytesRead < bytesToRead then
        match answers.nextFails state.index with
        | some status => .broken (.failed status) state
        | none =>
          let following := vcb.next disk state.currentCluster
          if isEof following ∨ following < 2 then .broken .success state
          else .next { state with currentCluster := following, index := state.index + 1 }
      else .next state

/-- Behind the loop; `ccb` says whether the file object has a context. -/
def finishRead (ccb : Bool) (status : FatStatus) (state : ReadState) : ReadResult where
  status := if 0 < state.bytesRead then .success else status
  information := some state.bytesRead
  userBuffer := state.userBuffer
  currentByteOffset := if ccb then some ((byteOffset + state.bytesRead) % 0x100000000) else none

def readLoop (ccb : Bool) : Nat → FatStatus → ReadState → Option ReadResult
  | 0, _, _ => none
  | rounds + 1, status, state =>
    if state.bytesRead < bytesToRead ∧ isEof state.currentCluster = false ∧ 2 ≤ state.currentCluster then
      match readStep vcb disk answers byteOffset bytesToRead state with
      | .next state => readLoop ccb rounds .success state
      | .broken status state => some (finishRead byteOffset ccb status state)
      | .returned status state => some ⟨status, none, state.userBuffer, none⟩
    else some (finishRead byteOffset ccb status state)

/-- The loop that skips clusters, with the place of the cluster that it comes to. -/
def skipClusters : Nat → Nat → Nat → Except (BitVec 32) Nat
  | 0, _, cluster => .ok cluster
  | clustersToSkip + 1, index, cluster =>
    if isEof cluster = false ∧ 2 ≤ cluster then
      match answers.nextFails index with
      | some status => .error status
      | none => skipClusters clustersToSkip (index + 1) (vcb.next disk cluster)
    else .ok cluster

/-- `FatpReadFile` for a file by its first cluster and its size. -/
def fatpReadFile (ccb : Bool) (firstCluster fileSize byteOffset length : Nat) (userBuffer : Nat → Byte) :
    Option ReadResult :=
  let ended (status : FatStatus) : Option ReadResult := some ⟨status, some 0, userBuffer, none⟩
  if firstCluster < 2 ∨ isEof firstCluster = true then ended .endOfFile
  else if fileSize ≤ byteOffset then ended .endOfFile
  else
    let bytesToRead := if fileSize < byteOffset + length then fileSize - byteOffset else length
    match skipClusters vcb disk answers (byteOffset / vcb.clusterSize) 0 firstCluster with
    | .error status => ended (.failed status)
    | .ok cluster =>
      if isEof cluster = true ∨ cluster < 2 then ended .endOfFile
      else readLoop vcb disk answers byteOffset bytesToRead ccb (bytesToRead + 1) .success
        ⟨cluster, byteOffset / vcb.clusterSize, 0, byteOffset % vcb.clusterSize, userBuffer⟩

end Model

structure FileChain (vcb : Vcb) (disk : Disk) (chain : List Nat) (firstCluster fileSize : Nat) : Prop where
  first : chain.head? = some firstCluster
  known : ∀ cluster ∈ chain, 2 ≤ cluster ∧ cluster < vcb.totalClusters + 2
  links : chain.IsChain fun cluster following => vcb.next disk cluster = following
  room : fileSize ≤ chain.length * vcb.clusterSize

/-- A byte of a file, from the clusters of the file. -/
def fileByte (vcb : Vcb) (disk : Disk) (chain : List Nat) (position : Nat) : Byte :=
  vcb.byteAt disk (vcb.clusterToLba (chain.getD (position / vcb.clusterSize) 0) * vcb.bytesPerSector +
    position % vcb.clusterSize)

/-- The volumes that have files to read: the sectors of a cluster are counted by a byte, the
tables are in front of the data, and the numbers of the clusters are below the marks that end
a chain. -/
structure Vcb.Readable (vcb : Vcb) : Prop extends vcb.WellFormed where
  cluster : 0 < vcb.sectorsPerCluster
  clusterByte : vcb.sectorsPerCluster ≤ 255
  ordered : vcb.fatStartLba + vcb.fatSizeSectors ≤ vcb.dataStartLba
  numbers : vcb.totalClusters + 2 ≤ 0x0FFFFFF8

end VeaOS.Fat
