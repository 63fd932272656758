import VeaOS.Ob.Attachment

/-! Requests that the I/O manager sends to the top of a stack of devices, and
the references it takes on the way. The lookup of the top returns it with a
reference of its own. -/
namespace VeaOS.Pnp
open Ob

abbrev VeaStatus := BitVec 32

def VeaStatus.isSuccess (status : VeaStatus) : Bool := !status.msb

def statusSuccess : VeaStatus := 0
def statusPending : VeaStatus := 0x103
def statusUnsuccessful : VeaStatus := 0xC0000001
def statusAccessDenied : VeaStatus := 0xC0000022
def statusInsufficientResources : VeaStatus := 0xC000009A
def statusNotFound : VeaStatus := 0xC0000225
def statusBufferTooSmall : VeaStatus := 0xC0000023
def statusObjectTypeMismatch : VeaStatus := 0xC0000024
def statusObjectNameNotFound : VeaStatus := 0xC0000034

/-- What a driver returns for a packet, and what the packet or the caller's
block says when it is done. -/
structure DriverAnswer (Information : Type) where
  returned : VeaStatus
  status : VeaStatus
  information : Information

section Lookup
variable {Object : Type} [DecidableEq Object]

def topLoop : Nat → AttachState Object → Object → Option (AttachState Object × Object)
  | 0, _, _ => none
  | fuel + 1, σ, currentObject =>
    match (σ currentObject).upperAttachedObject with
    | none => some (σ, currentObject)
    | some nextObject =>
      topLoop fuel ((σ.reference nextObject).dereference currentObject) nextObject

def obGetTopAttachedObject (fuel : Nat) (σ : AttachState Object) (o : Object) :
    Option (AttachState Object × Object) :=
  topLoop fuel (σ.reference o) o

def obioGetTopDeviceObject (fuel : Nat) (σ : AttachState Object) (deviceObject : Object) :
    Option (AttachState Object × Object) :=
  obGetTopAttachedObject fuel σ deviceObject

end Lookup

section Requests
variable {Object Information : Type} [DecidableEq Object]

/-- The state afterwards, the status that is returned, and the information where
it is written. -/
def obioSynchronusCallByStack (fuel : Nat) (σ : AttachState Object) (deviceObject : Object) (oip : Bool)
    (answer : DriverAnswer Information) : Option (AttachState Object × VeaStatus × Option Information) :=
  let σ := σ.reference deviceObject
  (obioGetTopDeviceObject fuel σ deviceObject).map fun (σ, _) =>
    if !oip then
      (σ.dereference deviceObject, statusInsufficientResources, none)
    else
      (σ.dereference deviceObject,
        if answer.returned = statusPending then answer.status else answer.returned, some answer.information)

def obioCallSpecificPnpOip (fuel : Nat) (σ : AttachState Object) (deviceObject : Object) (oip : Bool)
    (answer : DriverAnswer Information) : Option (AttachState Object × VeaStatus × Option Information) :=
  obioSynchronusCallByStack fuel σ deviceObject oip answer

/-- The status that is returned is the node's `LastStateCompletionStatus`, and
the information is its `PendingDeviceRelations`. -/
def obioQueryDeviceRelations (fuel : Nat) (σ : AttachState Object) (physicalDeviceObject : Object) (oip : Bool)
    (answer : DriverAnswer (Option (List Object))) :
    Option (AttachState Object × VeaStatus × Option (List Object)) := do
  let (σ, topDeviceObject) ← obioGetTopDeviceObject fuel σ physicalDeviceObject
  let (σ, status, information) ← obioSynchronusCallByStack fuel σ topDeviceObject oip answer
  return (σ, status, information.getD none)

/-- The status that is returned, and the `LastStateCompletionStatus` of the node:
a block that was cleared, and into which the call writes no status. -/
def obioStartDevice (fuel : Nat) (σ : AttachState Object) (physicalDeviceObject : Object) (oip : Bool)
    (answer : DriverAnswer Information) : Option (AttachState Object × VeaStatus × VeaStatus) := do
  let statusInformation : VeaStatus := 0
  let (σ, status, _) ← obioSynchronusCallByStack fuel σ physicalDeviceObject oip answer
  return (σ, status, statusInformation)

/-- The device's and the instance's part of the path where it is built. -/
def obioCreateDeviceNodeInstancePath (fuel : Nat) (σ : AttachState Object) (physicalDeviceObject : Object)
    (deviceOip instanceOip : Bool) (deviceAnswer instanceAnswer : DriverAnswer Information) (pool : Bool) :
    Option (AttachState Object × VeaStatus × Option (Information × Information)) := do
  let (σ, upperDeviceObject) ← obioGetTopDeviceObject fuel σ physicalDeviceObject
  let (σ, status, deviceId) ← obioCallSpecificPnpOip fuel σ upperDeviceObject deviceOip deviceAnswer
  if !status.isSuccess then
    return (σ, status, none)
  let (σ, status, instanceId) ← obioCallSpecificPnpOip fuel σ upperDeviceObject instanceOip instanceAnswer
  if !status.isSuccess then
    return (σ, status, none)
  if !pool then
    return (σ, statusInsufficientResources, none)
  return (σ, statusSuccess, deviceId.bind fun deviceId => instanceId.map fun instanceId => (deviceId, instanceId))

end Requests

section Parse
variable {Object Information : Type} [DecidableEq Object]

structure Vpb (Object : Type) where
  mounted : Bool
  locked : Bool
  deviceObject : Object

/-- What is found and answered on the way of an open. -/
structure ParseRequest (Object Information : Type) where
  openPacket : Bool
  vpb : Option (Vpb Object)
  mountAnswer : VeaStatus
  mountedDevice : Object
  createStatus : VeaStatus
  named : Bool
  namePool : Bool
  oip : Bool
  answer : DriverAnswer Information

/-- The file systems are asked in turn; a mount that fails gives back one of the
two references on the top of the device's stack. -/
def obioMountVolume (fuel : Nat) (σ : AttachState Object) (originalDevice : Object)
    (request : ParseRequest Object Information) (vpb : Vpb Object) :
    Option (AttachState Object × VeaStatus × Vpb Object) := do
  let (σ, attachedDeviceObject) ← obioGetTopDeviceObject fuel σ originalDevice
  let σ := σ.reference attachedDeviceObject
  if request.mountAnswer.isSuccess then
    return (σ, request.mountAnswer, { vpb with mounted := true, deviceObject := request.mountedDevice })
  return (σ.dereference attachedDeviceObject, request.mountAnswer, vpb)

def obioCheckVpbMounted (fuel : Nat) (σ : AttachState Object) (originalDevice : Object)
    (request : ParseRequest Object Information) (vpb : Vpb Object) :
    Option (AttachState Object × VeaStatus × Option (Vpb Object)) := do
  let (σ, status, vpb) ←
    if vpb.mounted then
      some (σ, statusSuccess, vpb)
    else
      obioMountVolume fuel σ originalDevice request vpb
  if !status.isSuccess then
    return (σ, status, none)
  if vpb.locked then
    return (σ, statusAccessDenied, none)
  return (σ, statusSuccess, some vpb)

inductive ParsedObject (Object : Type) where
  | device (o : Object)
  | file

/-- The file on a target device, whose create request goes to the top of its stack. -/
def openTarget (fuel : Nat) (σ : AttachState Object) (targetDevice : Object)
    (request : ParseRequest Object Information) :
    Option (AttachState Object × VeaStatus × Option (ParsedObject Object)) := do
  let (σ, _) ←
    if (σ targetDevice).upperAttachedObject.isSome then
      obioGetTopDeviceObject fuel σ targetDevice
    else
      some (σ, targetDevice)
  if !request.createStatus.isSuccess then
    return (σ, request.createStatus, none)
  if request.named && !request.namePool then
    return (σ, statusInsufficientResources, none)
  if !request.oip then
    return (σ, statusInsufficientResources, none)
  let status :=
    if request.answer.returned = statusPending then request.answer.status else request.answer.returned
  return (σ, status, if status.isSuccess then some .file else none)

def obioParseDevice (fuel : Nat) (σ : AttachState Object) (originalDevice : Object)
    (request : ParseRequest Object Information) :
    Option (AttachState Object × VeaStatus × Option (ParsedObject Object)) :=
  if !request.openPacket then
    some (σ, statusSuccess, some (.device originalDevice))
  else
    match request.vpb with
    | none => openTarget fuel σ originalDevice request
    | some vpb => do
        let (σ, status, vpb) ← obioCheckVpbMounted fuel σ originalDevice request vpb
        match vpb with
        | none => return (σ, status, none)
        | some vpb => openTarget fuel σ vpb.deviceObject request

end Parse
end VeaOS.Pnp
