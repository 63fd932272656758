import VeaOS.Foundation.RingList

/-! The notifications about device interfaces: drivers register callbacks in a list, and an event
walks the list. What a callback does is part of the data, since it can register further ones. -/
namespace VeaOS.Pnp
open Foundation

structure Guid where
  data1 : BitVec 32
  data2 : BitVec 16
  data3 : BitVec 16
  data4 : List (BitVec 8)
  deriving DecidableEq, Repr

def guidDeviceInterfaceArrival : Guid :=
  ⟨0xcb3a4004, 0x46f0, 0x11d0, [0xb0, 0x8f, 0x00, 0x60, 0x97, 0x13, 0x05, 0x3f]⟩

inductive EventCategory where
  | reserved
  | hardwareProfileChange
  | deviceInterfaceChange
  | targetDeviceChange
  deriving DecidableEq, Repr

inductive PnpStatus where
  | success
  | invalidParameter
  | insufficientResources
  | notSupported
  | failed (status : BitVec 32)
  deriving DecidableEq, Repr

/-- What carries links: the head of the list, the entries by the number of their allocation, and
the memory at address zero. -/
inductive PnpNode where
  | head
  | null
  | entry (number : Nat)
  deriving DecidableEq, Repr

structure PnpEntry (Driver : Type) where
  driverObject : Driver
  guid : Option Guid
  eventCategory : EventCategory
  refCount : BitVec 8

structure InterfaceChange where
  version : BitVec 16
  size : BitVec 16
  event : Guid
  interfaceClassGuid : Guid
  symbolicLinkName : List (BitVec 8)
  deriving DecidableEq, Repr

def interfaceChange (event interfaceClassGuid : Guid) (symbolicLinkName : List (BitVec 8)) : InterfaceChange :=
  ⟨10, 40, event, interfaceClassGuid, symbolicLinkName⟩

/-- The list of the entries, the references that the drivers hold, what registrations returned in
their last parameter, and the callbacks that were called. -/
structure PnpState (Driver : Type) where
  links : RingLinks PnpNode
  entries : Nat → PnpEntry Driver
  next : Nat
  references : Driver → Nat
  handedOut : List Nat
  calls : List (Nat × InterfaceChange)

structure PnpParameters (Driver : Type) where
  eventCategory : EventCategory
  includeExisting : Bool
  eventCategoryData : Option Guid
  driverObject : Option Driver
  callbackRoutine : Bool
  notificationEntry : Bool
  /-- There is memory for the entry. -/
  allocated : Bool
  /-- What the search for the interfaces that exist returns. -/
  deviceInterfaces : PnpStatus

mutual
/-- A registration with the interfaces that exist for it. -/
inductive PnpRequest (Driver : Type) where
  | register (parameters : PnpParameters Driver) (existing : PnpArrivals Driver)

/-- The links of the interfaces, with what the callback does for each of them. -/
inductive PnpArrivals (Driver : Type) where
  | last
  | link (symbolicLink : List (BitVec 8)) (does : PnpRequests Driver) (rest : PnpArrivals Driver)

inductive PnpRequests (Driver : Type) where
  | done
  | request (first : PnpRequest Driver) (rest : PnpRequests Driver)
end

section Entries
variable {Driver : Type} [DecidableEq Driver]

def PnpState.addReferences (s : PnpState Driver) (driver : Driver) (change : Nat → Nat) : PnpState Driver :=
  { s with references := Function.update s.references driver (change (s.references driver)) }

def obReferenceDriver (s : PnpState Driver) (driver : Driver) : PnpState Driver :=
  s.addReferences driver (· + 1)

def obDereferenceDriver (s : PnpState Driver) (driver : Driver) : PnpState Driver :=
  s.addReferences driver (· - 1)

def PnpState.modifyEntry (s : PnpState Driver) (number : Nat) (change : PnpEntry Driver → PnpEntry Driver) :
    PnpState Driver :=
  { s with entries := Function.update s.entries number (change (s.entries number)) }

def PnpState.allocateEntry (s : PnpState Driver) (driver : Driver) (category : EventCategory) :
    PnpState Driver :=
  { s with
    links := (s.links.setFlink (.entry s.next) .null).setBlink (.entry s.next) .null
    entries := Function.update s.entries s.next ⟨driver, none, category, 1⟩
    next := s.next + 1 }

def obioCallbackProcedure (s : PnpState Driver) (number : Nat) (change : InterfaceChange) : PnpState Driver :=
  { s with calls := s.calls ++ [(number, change)] }

/-- The entry leaves the list, which writes through both of its links, and its own become null.
Nothing when it has null links and there is no memory at address zero. -/
def removePnpEntry (zeroMapped : Bool) (L : RingLinks PnpNode) (number : Nat) : Option (RingLinks PnpNode) :=
  if (L.flink (.entry number) = .null ∨ L.blink (.entry number) = .null) ∧ zeroMapped = false then none
  else some (((L.unlinkEntry (.entry number)).setFlink (.entry number) .null).setBlink (.entry number) .null)

def obioReferencePnpNotify (s : PnpState Driver) (number : Nat) : PnpState Driver :=
  (obReferenceDriver s (s.entries number).driverObject).modifyEntry number
    fun entry => { entry with refCount := entry.refCount + 1 }

def obioDereferencePnpNotify (zeroMapped : Bool) (s : PnpState Driver) (number : Nat) :
    Option (PnpState Driver) :=
  let s := (obDereferenceDriver s (s.entries number).driverObject).modifyEntry number
    fun entry => { entry with refCount := entry.refCount - 1 }
  if (s.entries number).refCount = 0 then
    match removePnpEntry zeroMapped s.links number with
    | none => none
    | some links =>
      let s := { s with links }
      if (s.entries number).eventCategory = .targetDeviceChange then
        some (obDereferenceDriver s (s.entries number).driverObject)
      else some s
  else some s

end Entries

section Registration
variable {Driver : Type} [DecidableEq Driver]

def invalidParameters (p : PnpParameters Driver) : Bool :=
  p.driverObject.isNone || !p.callbackRoutine || !p.notificationEntry ||
    (p.eventCategory == .deviceInterfaceChange && p.eventCategoryData.isNone)

def PnpState.handOut (s : PnpState Driver) (number : Nat) : PnpState Driver :=
  { s with handedOut := s.handedOut ++ [number] }

/-- An entry for device interfaces joins the list at the end. -/
def insertPnpEntry (s : PnpState Driver) (number : Nat) (guid : Guid) : PnpState Driver :=
  { s.modifyEntry number (fun entry => { entry with guid := some guid }) with
    links := s.links.insertTailList .head (.entry number) }

mutual
/-- Nothing when the system stops at the memory at address zero. The driver and the class are there
when the parameters are valid. -/
def obioRegisterPlugPlayNotification (zeroMapped : Bool) (s : PnpState Driver) :
    PnpRequest Driver → Option (PnpStatus × PnpState Driver)
  | .register p existing =>
    if invalidParameters p then some (.invalidParameter, s)
    else match p.driverObject with
      | none => some (.invalidParameter, s)
      | some driver =>
        let s := obReferenceDriver s driver
        if !p.allocated then some (.insufficientResources, obDereferenceDriver s driver)
        else
          let number := s.next
          let s := s.allocateEntry driver p.eventCategory
          if p.eventCategory = .deviceInterfaceChange then
            match p.eventCategoryData with
            | none => some (.invalidParameter, s)
            | some guid =>
              let s := insertPnpEntry s number guid
              if p.includeExisting then
                if p.deviceInterfaces = .success then
                  (callExisting zeroMapped number guid s existing).map
                    fun s => (.success, s.handOut number)
                else (obioDereferencePnpNotify zeroMapped s number).map (p.deviceInterfaces, ·)
              else some (.success, s.handOut number)
          else (obioDereferencePnpNotify zeroMapped s number).map (.notSupported, ·)

/-- The loop that calls the new callback for each interface that exists. -/
def callExisting (zeroMapped : Bool) (number : Nat) (guid : Guid) (s : PnpState Driver) :
    PnpArrivals Driver → Option (PnpState Driver)
  | .last => some s
  | .link symbolicLink does rest =>
    let s := obioCallbackProcedure s number (interfaceChange guidDeviceInterfaceArrival guid symbolicLink)
    match perform zeroMapped s does with
    | none => none
    | some s => callExisting zeroMapped number guid s rest

def perform (zeroMapped : Bool) (s : PnpState Driver) : PnpRequests Driver → Option (PnpState Driver)
  | .done => some s
  | .request first rest =>
    match obioRegisterPlugPlayNotification zeroMapped s first with
    | none => none
    | some (_, s) => perform zeroMapped s rest
end

end Registration

section Delivery
variable {Driver : Type} [DecidableEq Driver]

/-- An event, with whether there is memory for the message and what the callbacks do, one after
the other. -/
structure PnpEvent (Driver : Type) where
  event : Guid
  interfaceClassGuid : Guid
  symbolicLinkName : List (BitVec 8)
  allocated : Bool
  does : List (PnpRequests Driver)

def PnpEvent.message (e : PnpEvent Driver) : InterfaceChange :=
  interfaceChange e.event e.interfaceClassGuid e.symbolicLinkName

/-- The call of one entry, and the entry that comes next after it. -/
def obioProcessSingleNotification (zeroMapped : Bool) (s : PnpState Driver) (number : Nat)
    (message : InterfaceChange) (does : PnpRequests Driver) : Option (PnpState Driver × PnpNode) :=
  match perform zeroMapped (obioCallbackProcedure (obioReferencePnpNotify s number) number message) does with
  | none => none
  | some s => (obioDereferencePnpNotify zeroMapped s number).map (·, s.links.flink (.entry number))

/-- The walk along the list. It has not ended when the fuel is used up. -/
def deliver (zeroMapped : Bool) (message : InterfaceChange) :
    Nat → PnpState Driver → PnpNode → List (PnpRequests Driver) → Option (PnpState Driver)
  | 0, _, _, _ => none
  | _ + 1, s, .head, _ => some s
  | _ + 1, _, .null, _ => none
  | fuel + 1, s, .entry number, does =>
    if (s.entries number).guid = some message.interfaceClassGuid then
      match obioProcessSingleNotification zeroMapped s number message (does.headD .done) with
      | none => none
      | some (s, next) => deliver zeroMapped message fuel s next does.tail
    else deliver zeroMapped message fuel s (s.links.flink (.entry number)) does

def obioNotifyDeviceInterfaceChange (zeroMapped : Bool) (fuel : Nat) (s : PnpState Driver) (e : PnpEvent Driver) :
    Option (PnpState Driver) :=
  if !e.allocated then some s
  else deliver zeroMapped e.message fuel s (s.links.flink .head) e.does

end Delivery

end VeaOS.Pnp
