import VeaOS.Fat.Volume
import VeaOS.Rtl.Division

/-! The mount of a volume. The boot record and the information sector are read into records of
512 bytes, whatever the sector sizes are, and two fields of the boot record are checked. -/
namespace VeaOS.Fat
open Foundation Rtl

inductive FatStatus where
  | success
  | invalidParameter
  | invalidDeviceRequest
  | insufficientResources
  | unrecognizedVolume
  | notSupported
  | endOfFile
  | failed (status : BitVec 32)
  deriving DecidableEq, Repr

/-- The fields of the boot record that the driver uses. -/
structure Fat32Vbr where
  bytesPerSector : BitVec 16
  sectorsPerCluster : BitVec 8
  reservedSectors : BitVec 16
  numberOfFats : BitVec 8
  totalSectors16 : BitVec 16
  totalSectors32 : BitVec 32
  fatSize32 : BitVec 32
  rootCluster : BitVec 32
  fsInfoSector : BitVec 16
  backupBootSector : BitVec 16
  magicSignature : BitVec 16

structure Fat32FsInfo where
  leadSignature : BitVec 32
  strucSignature : BitVec 32
  freeClusterCount : BitVec 32
  nextFreeCluster : BitVec 32

def field (w : Nat) (bytes : List Byte) (offset : Nat) : BitVec w :=
  BitVec.ofNat w (ofLittleEndian ((bytes.drop offset).take (w / 8)))

def fat32Vbr (bytes : List Byte) : Fat32Vbr where
  bytesPerSector := field 16 bytes 11
  sectorsPerCluster := field 8 bytes 13
  reservedSectors := field 16 bytes 14
  numberOfFats := field 8 bytes 16
  totalSectors16 := field 16 bytes 19
  totalSectors32 := field 32 bytes 32
  fatSize32 := field 32 bytes 36
  rootCluster := field 32 bytes 44
  fsInfoSector := field 16 bytes 48
  backupBootSector := field 16 bytes 50
  magicSignature := field 16 bytes 510

def fat32FsInfo (bytes : List Byte) : Fat32FsInfo where
  leadSignature := field 32 bytes 0
  strucSignature := field 32 bytes 484
  freeClusterCount := field 32 bytes 488
  nextFreeCluster := field 32 bytes 492

/-- The device extension of a volume, as the mount fills it. -/
structure MountedVcb extends Vcb where
  bytesPerCluster : Nat
  reservedSectors : Nat
  fsInfoSector : BitVec 16
  backupBootSector : BitVec 16
  totalSectors : Nat
  freeClusterCount : BitVec 32
  nextFreeCluster : BitVec 32

structure Vpb where
  deviceObject : Option MountedVcb
  mounted : Bool

/-- The device under the volume: its bytes, and the requests that it fails. -/
structure TargetDevice where
  bytes : Nat → Byte
  refuses : Nat → Nat → Option (BitVec 32)

/-- A request, with what the mount asks of others: the device, the geometry that the device
reports, and the device object of the volume. The two records are on the stack, with what
was there before. -/
structure FsCtlRequest where
  isCdo : Bool
  minorFunction : Nat
  realDevice : Option TargetDevice
  geometry : Except (BitVec 32) (BitVec 32)
  deviceCreated : Except (BitVec 32) Unit
  vbrRecord : Vector Byte 512
  fsInfoRecord : Vector Byte 512

inductive FsCtlOutcome where
  | returned (status : FatStatus) (vpb : Vpb)
  | overrun

def fatReadDiskSectors (device : TargetDevice) (lba sectorCount bytesPerSector : Nat) :
    Except (BitVec 32) (List Byte) :=
  let readLength := sectorCount * bytesPerSector % 0x100000000
  let byteOffset := lba * bytesPerSector % 0x10000000000000000
  match device.refuses byteOffset readLength with
  | some status => .error status
  | none => .ok ((List.range readLength).map fun i => device.bytes (byteOffset + i))

def fatValidateVbr (vbr : Fat32Vbr) : FatStatus :=
  if vbr.magicSignature ≠ 0xAA55 ∨ vbr.fatSize32 = 0 then .unrecognizedVolume else .success

def Fat32Vbr.dataStartLba (vbr : Fat32Vbr) : Nat :=
  vbr.reservedSectors.toNat + vbr.numberOfFats.toNat * vbr.fatSize32.toNat

def Fat32Vbr.totalSectors (vbr : Fat32Vbr) : Nat :=
  if vbr.totalSectors32 ≠ 0 then vbr.totalSectors32.toNat else vbr.totalSectors16.toNat

/-- The extension before the information sector is read. The difference has 64 bits, the
quotient is cut to 32. -/
def Fat32Vbr.volume (vbr : Fat32Vbr) : MountedVcb where
  bytesPerSector := vbr.bytesPerSector.toNat
  sectorsPerCluster := vbr.sectorsPerCluster.toNat
  bytesPerCluster := vbr.bytesPerSector.toNat * vbr.sectorsPerCluster.toNat
  reservedSectors := vbr.reservedSectors.toNat
  numberOfFats := vbr.numberOfFats.toNat
  fatSizeSectors := vbr.fatSize32.toNat
  rootDirStartCluster := vbr.rootCluster.toNat
  fsInfoSector := vbr.fsInfoSector
  backupBootSector := vbr.backupBootSector
  fatStartLba := vbr.reservedSectors.toNat
  dataStartLba := vbr.dataStartLba
  totalSectors := vbr.totalSectors
  totalClusters := ((rtlDivideUnsigned64 (BitVec.ofNat 64 vbr.totalSectors - BitVec.ofNat 64 vbr.dataStartLba)
    (vbr.sectorsPerCluster.setWidth 64)).quotient.setWidth 32).toNat
  freeClusterCount := 0xFFFFFFFF
  nextFreeCluster := 0xFFFFFFFF

def Fat32Vbr.hasFsInfo (vbr : Fat32Vbr) : Prop := vbr.fsInfoSector ≠ 0 ∧ vbr.fsInfoSector ≠ 0xFFFF

instance (vbr : Fat32Vbr) : Decidable vbr.hasFsInfo := inferInstanceAs (Decidable (_ ∧ _))

/-- The record with what was read in front, where the record is long enough. -/
def readInto (record : Vector Byte 512) (data : List Byte) : Option (List Byte) :=
  if data.length ≤ 512 then some (splice record.toList 0 data) else none

def MountedVcb.withFsInfo (vcb : MountedVcb) (fsInfo : Fat32FsInfo) : MountedVcb :=
  if fsInfo.leadSignature = 0x41615252 ∧ fsInfo.strucSignature = 0x61417272 then
    { vcb with freeClusterCount := fsInfo.freeClusterCount, nextFreeCluster := fsInfo.nextFreeCluster }
  else vcb

/-- `Vpb->DeviceObject = Vdo` and `VPB_MOUNTED`. -/
def mountVolume (vcb : MountedVcb) : FsCtlOutcome := .returned .success ⟨some vcb, true⟩

/-- From the information sector on, whose read may fail. -/
def mountFsInfo (request : FsCtlRequest) (device : TargetDevice) (vbr : Fat32Vbr) : FsCtlOutcome :=
  if vbr.hasFsInfo then
    match fatReadDiskSectors device vbr.fsInfoSector.toNat 1 vbr.bytesPerSector.toNat with
    | .error _ => mountVolume vbr.volume
    | .ok data =>
      match readInto request.fsInfoRecord data with
      | none => .overrun
      | some record => mountVolume (vbr.volume.withFsInfo (fat32FsInfo record))
  else mountVolume vbr.volume

def mountVbr (request : FsCtlRequest) (device : TargetDevice) (vbr : Fat32Vbr) (vpb : Vpb) : FsCtlOutcome :=
  if fatValidateVbr vbr ≠ .success then .returned (fatValidateVbr vbr) vpb
  else match request.deviceCreated with
    | .error status => .returned (.failed status) vpb
    | .ok _ => mountFsInfo request device vbr

/-- `FatMjFsCtl`. `OIP_MN_MOUNT_VOLUME` is 1. -/
def fatMjFsCtl (request : FsCtlRequest) (vpb : Vpb) : FsCtlOutcome :=
  if !request.isCdo then .returned .invalidDeviceRequest vpb
  else if request.minorFunction ≠ 1 then .returned .notSupported vpb
  else match request.realDevice with
    | none => .returned .invalidParameter vpb
    | some device =>
      match request.geometry with
      | .error status => .returned (.failed status) vpb
      | .ok bytesPerSector =>
        match fatReadDiskSectors device 0 1 bytesPerSector.toNat with
        | .error status => .returned (.failed status) vpb
        | .ok data =>
          match readInto request.vbrRecord data with
          | none => .overrun
          | some record => mountVbr request device (fat32Vbr record) vpb

/-- The tables and the data lie behind each other in the volume, the clusters are those of the
data, and a sector fits the buffers of 4096 bytes that the driver reads into. -/
structure MountedVcb.Sound (vcb : MountedVcb) : Prop where
  bytesPerSector : 0 < vcb.bytesPerSector
  sectorsPerCluster : 0 < vcb.sectorsPerCluster
  buffers : vcb.bytesPerSector ≤ 4096
  tables : ∀ copy < vcb.numberOfFats,
    vcb.reservedSectors ≤ vcb.fatStartLba + copy * vcb.fatSizeSectors ∧
      vcb.fatStartLba + (copy + 1) * vcb.fatSizeSectors ≤ vcb.dataStartLba
  data : vcb.dataStartLba ≤ vcb.totalSectors
  clusters : vcb.totalClusters = (vcb.totalSectors - vcb.dataStartLba) / vcb.sectorsPerCluster

/-- The call refuses and leaves the volume parameter block alone, or it mounts a sound volume. -/
def FsCtlOutcome.Sound (vpb : Vpb) : FsCtlOutcome → Prop
  | .returned status vpb' =>
    (status ≠ .success ∧ vpb' = vpb) ∨
    (status = .success ∧ vpb'.mounted = true ∧ ∃ vcb, vpb'.deviceObject = some vcb ∧ vcb.Sound)
  | .overrun => False

/-- A boot record that a mount makes a sound volume of, on a device. -/
structure Fat32Vbr.Sound (vbr : Fat32Vbr) (device : TargetDevice) : Prop where
  sectorsPerCluster : vbr.sectorsPerCluster ≠ 0
  bytesPerSector : vbr.bytesPerSector ≠ 0
  buffers : vbr.bytesPerSector.toNat ≤ 4096
  fsInfo : vbr.hasFsInfo → device.refuses (vbr.fsInfoSector.toNat * vbr.bytesPerSector.toNat)
    vbr.bytesPerSector.toNat = none → vbr.bytesPerSector.toNat ≤ 512
  data : vbr.dataStartLba ≤ vbr.totalSectors

/-- The boot record as it stands on the stack after the read of its sector. -/
def FsCtlRequest.bootRecord (request : FsCtlRequest) (device : TargetDevice) (bytesPerSector : BitVec 32) : Fat32Vbr :=
  fat32Vbr (splice request.vbrRecord.toList 0 ((List.range bytesPerSector.toNat).map device.bytes))

/-- What a mount comes to its decision with, once the device has answered, is sound. -/
def FsCtlRequest.Sound (request : FsCtlRequest) : Prop :=
  request.isCdo = true → request.minorFunction = 1 → ∀ device, request.realDevice = some device →
    ∀ bytesPerSector, request.geometry = .ok bytesPerSector → device.refuses 0 bytesPerSector.toNat = none →
    bytesPerSector.toNat ≤ 512 ∧
    (fatValidateVbr (request.bootRecord device bytesPerSector) = .success → request.deviceCreated = .ok () →
      (request.bootRecord device bytesPerSector).Sound device)

section Mount
variable {request : FsCtlRequest} {device : TargetDevice} {vbr : Fat32Vbr} {vpb : Vpb}

theorem fatReadDiskSectors_one (device : TargetDevice) (lba : BitVec 16) {bytesPerSector : Nat}
    (word : bytesPerSector < 0x100000000) : fatReadDiskSectors device lba.toNat 1 bytesPerSector =
      match device.refuses (lba.toNat * bytesPerSector) bytesPerSector with
      | some status => .error status
      | none => .ok ((List.range bytesPerSector).map fun i => device.bytes (lba.toNat * bytesPerSector + i)) := by
  have offset : lba.toNat * bytesPerSector < 0x10000000000000000 := by
    have product : lba.toNat * bytesPerSector ≤ 0x10000 * 0x100000000 :=
      Nat.mul_le_mul (Nat.le_of_lt lba.isLt) (Nat.le_of_lt word)
    omega
  rw [fatReadDiskSectors, Nat.one_mul, Nat.mod_eq_of_lt word, Nat.mod_eq_of_lt offset]

theorem totalSectors_lt (vbr : Fat32Vbr) : vbr.totalSectors < 0x100000000 := by
  rw [Fat32Vbr.totalSectors]
  split
  · exact vbr.totalSectors32.isLt
  · exact vbr.totalSectors16.isLt.trans (by decide)

theorem volume_clusters (ordered : vbr.dataStartLba ≤ vbr.totalSectors) :
    vbr.volume.totalClusters = (vbr.totalSectors - vbr.dataStartLba) / vbr.sectorsPerCluster.toNat := by
  have total := totalSectors_lt vbr
  have short := vbr.sectorsPerCluster.isLt
  have difference : (BitVec.ofNat 64 vbr.totalSectors - BitVec.ofNat 64 vbr.dataStartLba).toNat =
      vbr.totalSectors - vbr.dataStartLba := by
    rw [BitVec.toNat_sub, BitVec.toNat_ofNat, BitVec.toNat_ofNat]
    omega
  have quotient : (vbr.totalSectors - vbr.dataStartLba) / vbr.sectorsPerCluster.toNat < 0x100000000 :=
    (Nat.div_le_self _ _).trans_lt (by omega)
  rw [Fat32Vbr.volume]
  dsimp only
  rw [divideUnsigned_quotient, BitVec.toNat_setWidth, BitVec.toNat_udiv, difference, BitVec.toNat_setWidth,
    Nat.mod_eq_of_lt (show vbr.sectorsPerCluster.toNat < 2 ^ 64 by omega), Nat.mod_eq_of_lt quotient]

theorem volume_sound_iff : vbr.volume.Sound ↔ vbr.bytesPerSector ≠ 0 ∧ vbr.sectorsPerCluster ≠ 0 ∧
    vbr.bytesPerSector.toNat ≤ 4096 ∧ vbr.dataStartLba ≤ vbr.totalSectors := by
  have positive {w : Nat} (value : BitVec w) : 0 < value.toNat ↔ value ≠ 0 := by
    have zero : value = 0 ↔ value.toNat = 0 := BitVec.toNat_eq.trans (by rw [BitVec.ofNat_eq_ofNat, BitVec.toNat_zero])
    rw [Nat.pos_iff_ne_zero, ne_eq, ne_eq, zero]
  constructor
  · intro sound
    exact ⟨(positive _).mp sound.bytesPerSector, (positive _).mp sound.sectorsPerCluster, sound.buffers, sound.data⟩
  · rintro ⟨sector, cluster, buffers, ordered⟩
    refine ⟨(positive _).mpr sector, (positive _).mpr cluster, buffers, fun copy inside => ⟨Nat.le_add_right _ _, ?_⟩,
      ordered, volume_clusters ordered⟩
    exact Nat.add_le_add_left (Nat.mul_le_mul_right _ inside) _

theorem withFsInfo_sound_iff {vcb : MountedVcb} (fsInfo : Fat32FsInfo) :
    (vcb.withFsInfo fsInfo).Sound ↔ vcb.Sound := by
  rw [MountedVcb.withFsInfo]
  split
  · exact ⟨fun ⟨a, b, c, d, e, f⟩ => ⟨a, b, c, d, e, f⟩, fun ⟨a, b, c, d, e, f⟩ => ⟨a, b, c, d, e, f⟩⟩
  · rfl

theorem mountVolume_sound_iff {vcb : MountedVcb} : (mountVolume vcb).Sound vpb ↔ vcb.Sound := by
  constructor
  · rintro (⟨fails, -⟩ | ⟨-, -, vcb', mounted, sound⟩)
    · exact (fails rfl).elim
    · exact Option.some.inj mounted ▸ sound
  · exact fun sound => .inr ⟨rfl, rfl, vcb, rfl, sound⟩

theorem refused_sound {status : FatStatus} (fails : status ≠ .success) :
    (FsCtlOutcome.returned status vpb).Sound vpb := .inl ⟨fails, rfl⟩

theorem mountFsInfo_sound_iff : (mountFsInfo request device vbr).Sound vpb ↔
    (vbr.bytesPerSector ≠ 0 ∧ vbr.sectorsPerCluster ≠ 0 ∧ vbr.bytesPerSector.toNat ≤ 4096 ∧
      vbr.dataStartLba ≤ vbr.totalSectors) ∧
    (vbr.hasFsInfo → device.refuses (vbr.fsInfoSector.toNat * vbr.bytesPerSector.toNat)
      vbr.bytesPerSector.toNat = none → vbr.bytesPerSector.toNat ≤ 512) := by
  rw [mountFsInfo, ← volume_sound_iff]
  by_cases present : vbr.hasFsInfo
  · rw [if_pos present, fatReadDiskSectors_one _ _ (vbr.bytesPerSector.isLt.trans (by decide))]
    cases refused : device.refuses (vbr.fsInfoSector.toNat * vbr.bytesPerSector.toNat) vbr.bytesPerSector.toNat with
    | some status => exact mountVolume_sound_iff.trans ⟨fun sound => ⟨sound, fun _ ok => by cases ok⟩, And.left⟩
    | none =>
      dsimp only
      rw [readInto, List.length_map, List.length_range]
      by_cases fits : vbr.bytesPerSector.toNat ≤ 512
      · rw [if_pos fits]
        exact (mountVolume_sound_iff.trans (withFsInfo_sound_iff _)).trans ⟨fun sound => ⟨sound, fun _ _ => fits⟩,
          And.left⟩
      · rw [if_neg fits]
        exact ⟨False.elim, fun sound => (fits (sound.2 present rfl)).elim⟩
  · rw [if_neg present]
    exact mountVolume_sound_iff.trans ⟨fun sound => ⟨sound, fun has => (present has).elim⟩, And.left⟩

theorem mountVbr_sound_iff : (mountVbr request device vbr vpb).Sound vpb ↔
    (fatValidateVbr vbr = .success → request.deviceCreated = .ok () → vbr.Sound device) := by
  rw [mountVbr]
  by_cases valid : fatValidateVbr vbr = .success
  · rw [if_neg (not_not.mpr valid)]
    cases created : request.deviceCreated with
    | error status => exact ⟨fun _ _ ok => (by cases ok), fun _ => refused_sound nofun⟩
    | ok _ =>
      have asked : (fatValidateVbr vbr = .success → Except.ok () = (Except.ok () : Except (BitVec 32) Unit) →
          vbr.Sound device) ↔ vbr.Sound device := ⟨fun sound => sound valid rfl, fun sound _ _ => sound⟩
      rw [asked]
      refine mountFsInfo_sound_iff.trans ⟨fun ⟨⟨sector, cluster, buffers, data⟩, fsInfo⟩ => ?_, fun sound => ?_⟩
      · exact ⟨cluster, sector, buffers, fsInfo, data⟩
      · exact ⟨⟨sound.bytesPerSector, sound.sectorsPerCluster, sound.buffers, sound.data⟩, sound.fsInfo⟩
  · rw [if_pos valid]
    exact ⟨fun _ success => (valid success).elim, fun _ => refused_sound valid⟩

/-- A call of the control routine is sound for just the requests that are. -/
theorem fatMjFsCtl_sound_iff (request : FsCtlRequest) (vpb : Vpb) :
    (fatMjFsCtl request vpb).Sound vpb ↔ request.Sound := by
  rw [fatMjFsCtl, FsCtlRequest.Sound]
  cases request.isCdo with
  | false => exact ⟨fun _ cdo => (by cases cdo), fun _ => refused_sound nofun⟩
  | true =>
  by_cases minor : request.minorFunction = 1
  · rw [Bool.not_true, if_neg Bool.false_ne_true, if_neg (not_not.mpr minor)]
    cases request.realDevice with
    | none => exact ⟨fun _ _ _ _ none => (by cases none), fun _ => refused_sound nofun⟩
    | some device =>
    cases request.geometry with
    | error status => exact ⟨fun _ _ _ _ _ _ error => (by cases error), fun _ => refused_sound nofun⟩
    | ok bytesPerSector =>
      have begins := fatReadDiskSectors_one device 0 bytesPerSector.isLt
      simp only [BitVec.ofNat_eq_ofNat, BitVec.toNat_zero, Nat.zero_mul, Nat.zero_add] at begins
      dsimp only
      rw [begins]
      cases refused : device.refuses 0 bytesPerSector.toNat with
      | some status =>
        refine ⟨fun _ _ _ device' same _ same' accepted => ?_, fun _ => refused_sound nofun⟩
        cases same
        cases same'
        cases refused.symm.trans accepted
      | none =>
        dsimp only
        rw [readInto, List.length_map, List.length_range]
        by_cases fits : bytesPerSector.toNat ≤ 512
        · rw [if_pos fits]
          refine mountVbr_sound_iff.trans ⟨fun sound _ _ device' same _ same' _ => ?_, fun sound => ?_⟩
          · cases same
            cases same'
            exact ⟨fits, sound⟩
          · exact (sound rfl minor device rfl bytesPerSector rfl refused).2
        · rw [if_neg fits]
          exact ⟨False.elim, fun sound => fits (sound rfl minor device rfl bytesPerSector rfl refused).1⟩
  · rw [Bool.not_true, if_neg Bool.false_ne_true, if_pos minor]
    exact ⟨fun _ _ same => (minor same).elim, fun _ => refused_sound nofun⟩

/-- A disk whose boot record gives no sectors to a cluster. -/
def emptyClusters : TargetDevice where
  bytes offset := if offset = 12 then 2 else if offset = 36 then 1 else if offset = 510 then 0x55
    else if offset = 511 then 0xAA else 0
  refuses _ _ := none

def mountRequest (device : TargetDevice) : FsCtlRequest :=
  ⟨true, 1, some device, .ok 512, .ok (), .replicate 512 0, .replicate 512 0⟩

/-- Such a disk is mounted, without a sector in a cluster and without a cluster. -/
def FsCtlOutcome.clusterless : FsCtlOutcome → Bool
  | .returned .success ⟨some vcb, true⟩ => vcb.sectorsPerCluster == 0 && vcb.totalClusters == 0
  | _ => false

theorem FsCtlOutcome.clusterless_unsound {outcome : FsCtlOutcome} (mounted : outcome.clusterless = true) :
    ¬ outcome.Sound vpb := by
  unfold FsCtlOutcome.clusterless at mounted
  split at mounted
  · rename_i vcb
    rintro (⟨fails, -⟩ | ⟨-, -, vcb', same, sound⟩)
    · exact fails rfl
    · cases same
      have positive := sound.sectorsPerCluster
      simp only [Bool.and_eq_true, beq_iff_eq] at mounted
      omega
  · cases mounted

/-- The quotient by 0 is 0: the disk is mounted. -/
theorem mount_without_clusters : (fatMjFsCtl (mountRequest emptyClusters) ⟨none, false⟩).clusterless = true ∧
    ¬ (fatMjFsCtl (mountRequest emptyClusters) ⟨none, false⟩).Sound ⟨none, false⟩ := by
  have mounted : (fatMjFsCtl (mountRequest emptyClusters) ⟨none, false⟩).clusterless = true := by decide +kernel
  exact ⟨mounted, FsCtlOutcome.clusterless_unsound mounted⟩

end Mount
end VeaOS.Fat
