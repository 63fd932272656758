import VeaOS.Foundation.RingList

/-! The registered file systems and the mount of a volume. The file systems of a kind are a list;
a mount asks them for the volume until one accepts. -/
namespace VeaOS.Ob
open Foundation

/-- The lists of file systems, one for each kind of device. -/
inductive FsKind where
  | disk
  | network
  | cdRom
  deriving DecidableEq, Repr

inductive DeviceType where
  | disk
  | virtualDisk
  | cdRom
  | diskFileSystem
  | networkFileSystem
  | cdRomFileSystem
  | other (type : BitVec 32)
  deriving DecidableEq, Repr

inductive FsNode (Object : Type) where
  | head (kind : FsKind)
  | device (fs : Object)
  deriving DecidableEq

inductive MountStatus where
  | success
  | unsuccessful
  | insufficientResources
  | deviceDoesNotExist
  | failed (status : BitVec 32)
  deriving DecidableEq, Repr

/-- What registrations and mounts find: the devices of the file systems and what is attached
above them, whether there is memory for a packet of so many locations, and the status that a
mount request to an object ends with, at once or after a wait. -/
structure FsWorld (Object : Type) where
  deviceType : Object → DeviceType
  highPriority : Object → Bool
  upperAttachedObject : Object → Option Object
  oipAllocated : Object → Nat → Bool
  answer : Object → MountStatus

def DeviceType.fsKind : DeviceType → Option FsKind
  | .diskFileSystem => some .disk
  | .networkFileSystem => some .network
  | .cdRomFileSystem => some .cdRom
  | _ => none

/-- The list for a device that is to be mounted. For other types the pointer is not set. -/
def DeviceType.mountKind : DeviceType → Option FsKind
  | .disk | .virtualDisk => some .disk
  | .cdRom => some .cdRom
  | _ => none

section Registration
variable {Object : Type} [DecidableEq Object]

def initializeFsLists (L : RingLinks (FsNode Object)) : RingLinks (FsNode Object) :=
  ((L.initializeListHead (.head .network)).initializeListHead (.head .disk)).initializeListHead (.head .cdRom)

def obioRegisterFileSystem (world : FsWorld Object) (L : RingLinks (FsNode Object)) (fs : Object) :
    RingLinks (FsNode Object) :=
  match (world.deviceType fs).fsKind with
  | none => L
  | some kind =>
    if world.highPriority fs then L.insertHeadList (L.blink (.head kind)) (.device fs)
    else L.insertTailList (.head kind) (.device fs)

def registerAll (world : FsWorld Object) (L : RingLinks (FsNode Object)) (registrations : List Object) :
    RingLinks (FsNode Object) :=
  registrations.foldl (obioRegisterFileSystem world) (initializeFsLists L)

end Registration

section Mount
variable {Object : Type} [DecidableEq Object]

/-- The inner loop, which looks at the header of the file system in every turn. -/
def climbStack (world : FsWorld Object) (header : Object) : Nat → Object → Nat → Option (Object × Nat)
  | 0, _, _ => none
  | fuel + 1, fileSystem, fsStackOverhead =>
    match world.upperAttachedObject header with
    | none => some (fileSystem, fsStackOverhead)
    | some upper => climbStack world header fuel upper (fsStackOverhead + 1)

/-- The outer loop, with the file systems that were asked. It has not ended when the fuel is used
up, and does not go on at the head of another list. The count of registrations, with which the
code would begin anew, is never written. -/
def mountLoop (world : FsWorld Object) (L : RingLinks (FsNode Object)) (stackDepth : Nat)
    (fsList : FsNode Object) : Nat → FsNode Object → MountStatus → List Object → Option (MountStatus × List Object)
  | 0, _, _, _ => none
  | fuel + 1, listEntry, status, asked =>
    if listEntry = fsList ∨ status = .success then some (status, asked)
    else match listEntry with
      | .head _ => none
      | .device fs =>
        match climbStack world fs fuel fs 1 with
        | none => none
        | some (target, fsStackOverhead) =>
          if world.oipAllocated fs (stackDepth + fsStackOverhead) then
            mountLoop world L stackDepth fsList fuel (L.flink listEntry) (world.answer target)
              (asked ++ [fs])
          else some (.insufficientResources, asked)

def vpbMounted : BitVec 32 := 0x0001
def vpbRemovePending : BitVec 32 := 0x0010
def doVerifyVolume : BitVec 32 := 0x00000002
def doSystemBootPartition : BitVec 32 := 0x00010000

/-- A device to be mounted, with its volume block and the depth of the stack above it. -/
structure MountDevice where
  deviceType : DeviceType
  flags : BitVec 32
  stackDepth : Nat
  vpbFlags : BitVec 32
  vpbReferenceCount : BitVec 32
  deriving DecidableEq, Repr

structure MountOutcome (Object : Type) where
  status : MountStatus
  device : MountDevice
  asked : List Object
  bugCheck : Bool

inductive MountRun (Object : Type) where
  | running
  | listNotSet
  | ended (outcome : MountOutcome Object)

def obioMountInitializeVpb (device : MountDevice) : MountDevice :=
  { device with
    vpbFlags := device.vpbFlags ||| vpbMounted
    vpbReferenceCount := device.vpbReferenceCount + 1 }

/-- The end of the function: a missing boot device stops the system. -/
def mountReturn (earlyPhase : Bool) (status : MountStatus) (device : MountDevice) (asked : List Object) :
    MountRun Object :=
  .ended ⟨status, device, asked,
    status != .success && device.flags &&& doSystemBootPartition != 0 && earlyPhase⟩

def obioMountVolume (world : FsWorld Object) (L : RingLinks (FsNode Object)) (earlyPhase : Bool) (fuel : Nat)
    (originalDevice : MountDevice) : MountRun Object :=
  if originalDevice.vpbFlags &&& vpbMounted = 0 then
    let device := { originalDevice with flags := originalDevice.flags &&& doVerifyVolume }
    match device.deviceType.mountKind with
    | none => .listNotSet
    | some kind =>
      match mountLoop world L device.stackDepth (.head kind) fuel (L.flink (.head kind)) .unsuccessful [] with
      | none => .running
      | some (.success, asked) => mountReturn earlyPhase .success (obioMountInitializeVpb device) asked
      | some (status, asked) => mountReturn earlyPhase status device asked
  else if originalDevice.vpbFlags &&& vpbRemovePending ≠ 0 then
    mountReturn earlyPhase .deviceDoesNotExist originalDevice []
  else mountReturn earlyPhase .success originalDevice []

end Mount

end VeaOS.Ob
