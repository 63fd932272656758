import VeaOS.Pm.PartitionScan

/-! The requests on a partition. A read or write moves by the start of the
partition and goes to the disk below; nothing compares it with the length. -/
namespace VeaOS.Pm
open Foundation

section Growth
variable {Object : Type}

/-- The disk after some devices were created for it. -/
structure Grown (disk after : PmDisk Object) : Prop where
  lower : after.lowerDeviceObject = disk.lowerDeviceObject
  sectors : after.bytesPerSector = disk.bytesPerSector
  created : ∀ dev ∈ after.partitionList,
    dev ∈ disk.partitionList ∨ dev.lowerDeviceObject = disk.lowerDeviceObject

theorem Grown.refl (disk : PmDisk Object) : Grown disk disk := ⟨rfl, rfl, fun _ member => Or.inl member⟩

theorem Grown.trans {disk between after : PmDisk Object} (first : Grown disk between)
    (second : Grown between after) : Grown disk after := by
  refine ⟨second.lower.trans first.lower, second.sectors.trans first.sectors, fun dev member => ?_⟩
  obtain old | new := second.created dev member
  · exact first.created dev old
  · exact Or.inr (new.trans first.lower)

theorem grown_create (refused : Option (BitVec 32)) (disk : PmDisk Object) (entry : PmPartitionEntry)
    (partitionNum : BitVec 32) (info : PartitionInfo) :
    Grown disk (pmpCreatePartitionDevice refused disk entry partitionNum info).2 := by
  cases refused with
  | some status => exact Grown.refl _
  | none =>
    refine ⟨rfl, rfl, fun dev member => ?_⟩
    obtain old | new := List.mem_append.mp member
    · exact Or.inl old
    · rw [List.mem_singleton.mp new]
      exact Or.inr rfl

theorem gptEntryStep_grown {world : ScanWorld} {disk after : PmDisk Object}
    (step : gptEntryStep world record i partitionNum disk = some (next, after)) : Grown disk after := by
  have create := grown_create (world.deviceRefused i) disk (gptPartitionEntry disk.bytesPerSector record)
    partitionNum (gptInfo record)
  rw [gptEntryStep] at step
  split at step
  next => cases step
  next =>
    cases step
    exact Grown.refl _
  next =>
    split at step
    next => cases step
    next =>
      split at step
      next => cases step
      next =>
        split at step
        all_goals
          next equal =>
            cases step
            rw [equal] at create
            exact create

theorem gptEntryLoop_grown {world : ScanWorld} {disk after : PmDisk Object}
    (ends : gptEntryLoop world entries size left i partitionNum disk = .returned status after) :
    Grown disk after := by
  induction left generalizing i partitionNum disk with
  | zero =>
    cases ends
    exact Grown.refl _
  | succ left ih =>
    rw [gptEntryLoop] at ends
    split at ends
    next => cases ends
    next step => exact (gptEntryStep_grown step).trans (ih ends)

theorem mbrLoop_grown {world : ScanWorld} {disk after : PmDisk Object}
    (ends : mbrLoop world buffer left i partitionNum disk = .returned status after) : Grown disk after := by
  induction left generalizing i partitionNum disk with
  | zero =>
    cases ends
    exact Grown.refl _
  | succ left ih =>
    have create := grown_create (world.deviceRefused i) disk
      (mbrPartitionEntry disk.bytesPerSector (mbrRecord buffer i)) partitionNum
      (.mbr (mbrPartitionType (mbrRecord buffer i)) (Fat.field 8 (mbrRecord buffer i) 0))
    simp only [mbrLoop] at ends
    split at ends
    next => cases ends
    next =>
      split at ends
      next => exact ih ends
      next =>
        split at ends
        next => cases ends
        next =>
          split at ends
          next => exact ih ends
          next =>
            split at ends
            all_goals
              next equal =>
                rw [equal] at create
                exact create.trans (ih ends)

theorem gptScanEntries_grown {world : ScanWorld} {disk after : PmDisk Object}
    (ends : gptScanEntries world disk header = .returned status after) : Grown disk after := by
  rw [gptScanEntries] at ends
  split at ends
  next =>
    cases ends
    exact Grown.refl _
  next =>
    split at ends
    next =>
      cases ends
      exact Grown.refl _
    next => exact gptEntryLoop_grown ends

theorem pmpCreateGptPartitionPdo_grown {world : ScanWorld} {disk after : PmDisk Object}
    (ends : pmpCreateGptPartitionPdo world disk = .returned status after) : Grown disk after := by
  rw [pmpCreateGptPartitionPdo] at ends
  split at ends
  next =>
    cases ends
    exact Grown.refl _
  next =>
    split at ends
    next => cases ends
    next =>
      split at ends
      next => cases ends
      next => exact gptScanEntries_grown ends
    next =>
      cases ends
      exact Grown.refl _

theorem pmpDetectAndCreatePartition_grown {world : ScanWorld} {disk after : PmDisk Object}
    (ends : pmpDetectAndCreatePartition world disk buffer = .returned status after) : Grown disk after := by
  rw [pmpDetectAndCreatePartition] at ends
  split at ends
  next => cases ends
  next =>
    split at ends
    next => exact pmpCreateGptPartitionPdo_grown ends
    next => exact mbrLoop_grown ends

end Growth

section Requests
variable {Object : Type}

inductive MajorFunction where
  | read
  | write
  | deviceControl
  | pnp
  | other (number : BitVec 8)
  deriving DecidableEq, Repr

/-- The fields of a stack location that the handler uses. -/
structure PmStack where
  majorFunction : MajorFunction
  offset : BitVec 64
  length : BitVec 32
  deriving DecidableEq, Repr

inductive PmOutcome (Object : Type) where
  | passed (target : Object) (next : PmStack)
  | control
  | failed (status : PmStatus)
  deriving DecidableEq, Repr

/-- `PmPartitionInt`, with the pointer to the next stack location not null, or null. -/
def pmPartitionInt (dev : PmDeviceExtension Object) (stack : PmStack) (nextStack : Bool) :
    PmOutcome Object :=
  match stack.majorFunction with
  | .read | .write =>
    let stack := { stack with offset := stack.offset + dev.startingOffset }
    if nextStack then .passed dev.lowerDeviceObject stack else .failed .invalidDeviceRequest
  | .deviceControl => .control
  | .pnp | .other _ => .failed .invalidDeviceRequest

/-- The bytes of the disk that a request addresses. -/
def PmStack.addresses (stack : PmStack) (b : Nat) : Prop :=
  stack.offset.toNat ≤ b ∧ b < stack.offset.toNat + stack.length.toNat

def PmDeviceExtension.covers (dev : PmDeviceExtension Object) (b : Nat) : Prop :=
  dev.startingOffset.toNat ≤ b ∧ b < dev.startingOffset.toNat + dev.partitionLength.toNat

/-- The request stays above the partition's bytes of the disk, or does not get to the disk. -/
def Contained (disk : PmDisk Object) (dev : PmDeviceExtension Object) : PmOutcome Object → Prop
  | .passed target next => target = disk.lowerDeviceObject ∧ ∀ b, next.addresses b → dev.covers b
  | .control | .failed _ => True

theorem moved_covered_iff (start offset : BitVec 64) (count length : Nat) :
    (∀ b, (offset + start).toNat ≤ b ∧ b < (offset + start).toNat + count →
        start.toNat ≤ b ∧ b < start.toNat + length) ↔
      count = 0 ∨ offset.toNat + start.toNat < 2 ^ 64 ∧ offset.toNat + count ≤ length := by
  have moved : (offset + start).toNat = (offset.toNat + start.toNat) % 2 ^ 64 := BitVec.toNat_add offset start
  have offsetBound := offset.isLt
  have startBound := start.isLt
  constructor
  · intro inside
    obtain rfl | some := Nat.eq_zero_or_pos count
    · exact Or.inl rfl
    have first := inside (offset + start).toNat ⟨le_rfl, Nat.lt_add_of_pos_right some⟩
    have last := inside ((offset + start).toNat + (count - 1)) ⟨Nat.le_add_right _ _, by omega⟩
    have straight : offset.toNat + start.toNat < 2 ^ 64 := by
      by_contra wraps
      omega
    rw [Nat.mod_eq_of_lt straight] at moved
    exact Or.inr ⟨straight, by omega⟩
  · rintro (rfl | ⟨straight, fits⟩) b ⟨low, high⟩
    · omega
    · rw [Nat.mod_eq_of_lt straight] at moved
      omega

/-- A read or write on a partition of any table stays in the partition exactly when its own end
does, and its move does not wrap. -/
theorem partition_contained_iff {world : ScanWorld} {disk after : PmDisk Object} {buffer : List Byte}
    {status : PmStatus} {dev : PmDeviceExtension Object} (fresh : disk.partitionList = [])
    (scanned : pmpDetectAndCreatePartition world disk buffer = .returned status after)
    (created : dev ∈ after.partitionList) (stack : PmStack) (nextStack : Bool)
    (transfer : stack.majorFunction = .read ∨ stack.majorFunction = .write) :
    Contained disk dev (pmPartitionInt dev stack nextStack) ↔
      (nextStack = false ∨ stack.length = 0 ∨
        stack.offset.toNat + dev.startingOffset.toNat < 2 ^ 64 ∧
          stack.offset.toNat + stack.length.toNat ≤ dev.partitionLength.toNat) := by
  have lower : dev.lowerDeviceObject = disk.lowerDeviceObject := by
    obtain old | new := (pmpDetectAndCreatePartition_grown scanned).created dev created
    · rw [fresh] at old
      cases old
    · exact new
  have window := moved_covered_iff dev.startingOffset stack.offset stack.length.toNat dev.partitionLength.toNat
  have none_iff : stack.length.toNat = 0 ↔ stack.length = 0 :=
    ⟨fun zero => BitVec.eq_of_toNat_eq zero, fun zero => congrArg BitVec.toNat zero⟩
  rw [none_iff] at window
  cases nextStack with
  | false =>
    obtain read | write := transfer
    · simp only [pmPartitionInt, read, Bool.false_eq_true, if_false, Contained, true_or]
    · simp only [pmPartitionInt, write, Bool.false_eq_true, if_false, Contained, true_or]
  | true =>
    obtain read | write := transfer
    · simp only [pmPartitionInt, read, if_true, Contained, lower, true_and, Bool.true_eq_false, false_or]
      exact window
    · simp only [pmPartitionInt, write, if_true, Contained, lower, true_and, Bool.true_eq_false, false_or]
      exact window

end Requests

section Sample

/-- A boot record with one partition: 2048 sectors from the 2048th sector on. -/
def sampleBootRecord : List Byte :=
  List.replicate 446 0 ++ [0x80, 0, 0, 0, 0x0C, 0, 0, 0, 0x00, 0x08, 0, 0, 0x00, 0x08, 0, 0] ++
    List.replicate 48 0 ++ [0x55, 0xAA]

def sampleWorld : ScanWorld := ⟨fun _ => 0, fun _ _ => none, true, true, fun _ => none⟩

def sampleDisk : PmDisk Unit := ⟨(), 0, 512, [], 0⟩

def samplePartition : PmDeviceExtension Unit :=
  ⟨(), 0, 1, 512, 0x100000, 0x100000, .masterBootRecord, .mbr 0x0C 0x80⟩

theorem sample_scanned : pmpDetectAndCreatePartition sampleWorld sampleDisk sampleBootRecord =
    .returned .success { sampleDisk with partitionList := [samplePartition], partitionCount := 1 } := by
  decide +kernel

theorem partition_contained_sample :
    Contained sampleDisk samplePartition (pmPartitionInt samplePartition ⟨.read, 0, 512⟩ true) :=
  (partition_contained_iff rfl sample_scanned (List.mem_singleton.mpr rfl) ⟨.read, 0, 512⟩ true
    (Or.inl rfl)).mpr (Or.inr (Or.inr ⟨by decide, by decide⟩))

/-- A write right behind the end of a partition goes to the disk, to the sector that follows. -/
theorem partition_not_contained :
    ¬ ∀ (world : ScanWorld) (disk after : PmDisk Unit) (buffer : List Byte) (status : PmStatus)
        (dev : PmDeviceExtension Unit) (stack : PmStack), disk.partitionList = [] →
      pmpDetectAndCreatePartition world disk buffer = .returned status after → dev ∈ after.partitionList →
      stack.majorFunction = .read ∨ stack.majorFunction = .write →
      Contained disk dev (pmPartitionInt dev stack true) := by
  intro contained
  have inside := contained sampleWorld sampleDisk _ sampleBootRecord _ samplePartition
    ⟨.write, 0x100000, 512⟩ rfl sample_scanned (List.mem_singleton.mpr rfl) (Or.inr rfl)
  have beyond := inside.2 0x200000 ⟨by decide, by decide⟩
  exact absurd beyond.2 (by decide)

end Sample

end VeaOS.Pm
