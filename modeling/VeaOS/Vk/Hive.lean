import VeaOS.Foundation.ByteMemory

/-! A hive in memory: its stable bins, which are numbered through by offsets, its
volatile bins, and the cells taken from them. Every piece of pool memory is a
block; blocks are numbered in the order in which they were obtained. -/
namespace VeaOS.Vk
open Foundation

structure StableBin where
  binBase : Nat
  binSize : BitVec 32
  binBaseOffset : BitVec 32

structure Hive where
  memory : Memory Nat
  blocks : Nat
  length : BitVec 32
  freeOffset : BitVec 32
  dirtyVector : Nat → BitVec 32
  dirtyVectorSize : BitVec 32
  isReadOnly : Bool
  isDirty : Bool
  stableBins : List StableBin
  volatileBins : List Nat
  currentBinFreeOffset : BitVec 32

/-- What a bin that is to be allocated finds: whether the pool has memory, and the
time. -/
structure Growth where
  pooled : Bool
  time : BitVec 64

def keyHeaderSig : BitVec 32 := 0x3159454B
def keyBinSig : BitVec 32 := 0x314E4942
def keyDirSig : BitVec 16 := 0x4E44
def keyFileSig : BitVec 16 := 0x4E46
def maxVolatileBins : Nat := 32
def maxStableBins : Nat := 256
def volatileKeyOffset : BitVec 32 := 0x80000000
def vkBinSize : BitVec 32 := 0x1000
def vkBlockSize : BitVec 32 := 512
def sizeofBaseBlock : Nat := 24
def sizeofDirectoryNode : Nat := 30
def sizeofFileNode : Nat := 26

def vkIsVolatileOffset (offset : BitVec 32) : Bool := offset &&& volatileKeyOffset != 0
def vkGetRawOffset (offset : BitVec 32) : BitVec 32 := offset &&& ~~~volatileKeyOffset
def vkMakeVolatileOffset (offset : BitVec 32) : BitVec 32 := offset ||| volatileKeyOffset
def vkAlignUp (size align : BitVec 32) : BitVec 32 := (size + (align - 1)) &&& ~~~(align - 1)

/-- The addresses that the pool is given pages of. -/
def poolRange : Nat := 0xFFC00000 - 0xC1000000

namespace Hive
variable (H : Hive)

def setDirty (vectorIndex : Nat) (word : BitVec 32) : Hive :=
  { H with dirtyVector := Function.update H.dirtyVector vectorIndex word, isDirty := true }

end Hive

/-- The hive of an image that is loaded; `pooled` when the pool has memory for the
copy, for the hive and for the dirty vector. -/
def vkpInitializeSystemHive (image : Nat → Byte) (hiveLength : BitVec 32) (pool : Memory Nat)
    (pooled : Bool) : Option Hive :=
  let systemHive : Memory Unit := fun _ => image
  let field (offset : Nat) : Pointer Unit := ⟨(), offset⟩
  if systemHive.read32 (field 0) ≠ keyHeaderSig then none
  else if systemHive.read32 (field 4) ≠ systemHive.read32 (field 8) then none
  else if systemHive.read32 (field 0x1000) ≠ keyBinSig then none
  else if poolRange < hiveLength.toNat ∨ pooled = false then none
  else
    let memory : Memory Nat := fun block i =>
      if block = 0 ∧ i < hiveLength.toNat then image i else pool block i
    if systemHive.read16 (field (0x1000 + sizeofBaseBlock + 4)) ≠ keyDirSig then none
    else some {
      memory
      blocks := 1
      length := hiveLength
      freeOffset := hiveLength
      dirtyVector := fun _ => 0
      dirtyVectorSize := hiveLength / 0x1000 / 32 + 1
      isReadOnly := false
      isDirty := false
      stableBins := [⟨0, hiveLength, 0⟩]
      volatileBins := []
      currentBinFreeOffset := 0 }

def vkpGetCellPointer (H : Hive) (cellOffset : BitVec 32) : Option (Pointer Nat) :=
  if cellOffset = 0 then none
  else
    let rawOffset := vkGetRawOffset cellOffset
    if vkIsVolatileOffset cellOffset then
      H.volatileBins[(rawOffset / vkBinSize).toNat]?.map fun bin => ⟨bin, (rawOffset &&& 0xFFF).toNat⟩
    else
      (H.stableBins.find? fun bin =>
        bin.binBaseOffset ≤ rawOffset && rawOffset < bin.binBaseOffset + bin.binSize).map
        fun bin => ⟨bin.binBase, (rawOffset - bin.binBaseOffset).toNat⟩

def vkpMarkCellDirty (H : Hive) (cellOffset : BitVec 32) : Hive :=
  if vkIsVolatileOffset cellOffset || H.isReadOnly then H
  else
    let rawOffset := vkGetRawOffset cellOffset
    if H.length ≤ rawOffset then H
    else
      let blockIndex := rawOffset / vkBlockSize
      let vectorIndex := (blockIndex / 32).toNat
      if vectorIndex < H.dirtyVectorSize.toNat then
        H.setDirty vectorIndex (H.dirtyVector vectorIndex ||| (1 : BitVec 32) <<< (blockIndex % 32))
      else H

/-- A zeroed block, and the header of a bin at its start. -/
def newBin (m : Memory Nat) (block : Nat) (relativeOffset : BitVec 32) (time : BitVec 64) :
    Memory Nat :=
  let base : Pointer Nat := ⟨block, 0⟩
  (((m.zeroBytes base vkBinSize.toNat).write32 base keyBinSig).write32 (base.add 4)
    relativeOffset).write32 (base.add 8) vkBinSize |>.writeBytes (base.add 12)
    (littleEndian 8 time.toNat)

def hvAllocateVolatileCell (H : Hive) (growth : Growth) : Option Hive :=
  if maxVolatileBins ≤ H.volatileBins.length ∨ growth.pooled = false then none
  else some { H with
    memory := newBin H.memory H.blocks (BitVec.ofNat 32 H.volatileBins.length * vkBinSize) growth.time
    blocks := H.blocks + 1
    volatileBins := H.volatileBins ++ [H.blocks]
    currentBinFreeOffset := BitVec.ofNat 32 sizeofBaseBlock }

/-- The header of a new stable bin has no time. -/
def hvAllocateStableCell (H : Hive) (growth : Growth) : Option Hive :=
  if maxStableBins ≤ H.stableBins.length ∨ growth.pooled = false then none
  else some (vkpMarkCellDirty { H with
    memory := newBin H.memory H.blocks H.length 0
    blocks := H.blocks + 1
    stableBins := H.stableBins ++ [⟨H.blocks, vkBinSize, H.length⟩]
    freeOffset := H.length + BitVec.ofNat 32 sizeofBaseBlock
    length := H.length + vkBinSize } H.length)

/-- The bin that is filled has no room for a cell. -/
def volatileFull (H : Hive) (size : BitVec 32) : Bool :=
  H.volatileBins.length == 0 || vkBinSize < H.currentBinFreeOffset + vkAlignUp size 4

def stableFull (H : Hive) (size : BitVec 32) : Bool :=
  H.freeOffset == 0 || H.length < H.freeOffset + vkAlignUp size 4

def takeVolatile (H : Hive) (size : BitVec 32) : Option (Hive × BitVec 32 × Pointer Nat) :=
  H.volatileBins.getLast?.map fun bin =>
    ({ H with currentBinFreeOffset := H.currentBinFreeOffset + vkAlignUp size 4 },
      BitVec.ofNat 32 (H.volatileBins.length - 1) * vkBinSize + H.currentBinFreeOffset,
      ⟨bin, H.currentBinFreeOffset.toNat⟩)

def takeStable (H : Hive) (size : BitVec 32) : Option (Hive × BitVec 32 × Pointer Nat) :=
  (vkpGetCellPointer H H.freeOffset).map fun cell =>
    (vkpMarkCellDirty { H with freeOffset := H.freeOffset + vkAlignUp size 4 } H.freeOffset,
      H.freeOffset, cell)

/-- The hive, and the raw offset of the cell with the cell. -/
def vkpAllocateVolatileCell (H : Hive) (size : BitVec 32) (growth : Growth) :
    Hive × Option (BitVec 32 × Pointer Nat) :=
  if size = 0 then (H, none)
  else
    let grown := if volatileFull H size then hvAllocateVolatileCell H growth else some H
    match grown.bind (takeVolatile · size) with
    | none => (H, none)
    | some (H, offset, cell) => (H, some (offset, cell))

/-- Whether the hive could grow is not looked at. -/
def vkpAllocateStableCell (H : Hive) (size : BitVec 32) (growth : Growth) :
    Hive × Option (BitVec 32 × Pointer Nat) :=
  if size = 0 then (H, none)
  else
    let grown := if stableFull H size then (hvAllocateStableCell H growth).getD H else H
    match takeStable grown size with
    | none => (grown, none)
    | some (H, offset, cell) => (H, some (offset, cell))

end VeaOS.Vk
