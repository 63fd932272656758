import VeaOS.Foundation.PackedBits

/-! The interrupt vectors. A vector has a bit in the bitmap and an entry in the
table of its range; a line is also routed to its vector by the I/O APIC. -/
namespace VeaOS.Hct

inductive VeaStatus where
  | success
  | invalidParameter
  | kInterruptOccupied
  | notFound
  deriving DecidableEq, Repr

def VeaStatus.isSuccess (status : VeaStatus) : Bool := status == .success

inductive KInterruptConnectionType where
  | interruptLineBased
  | interruptMessageBased
  | interruptExtendedMessageBased
  deriving DecidableEq, Repr

structure KInterrupt where
  connectionType : KInterruptConnectionType
  irqVector : Nat
  vector : Nat

structure KInterruptMessage where
  addressLow : BitVec 32
  addressHigh : BitVec 32
  data : BitVec 32
  vector : BitVec 32
  deriving DecidableEq

structure HctInterruptInternal (Handler : Type) where
  vector : Nat
  used : Bool
  handlerRoutine : Option Handler

structure HctInterruptExternal (Interrupt Handler : Type) where
  interrupt : Option Interrupt
  handler : Option Handler
  vector : Nat
  isSystemInterrupt : Bool
  used : Bool
  irql : Nat

structure HctGsiEntry where
  gsi : Nat
  controllerIndex : Nat
  pin : Nat
  valid : Bool

structure HctIsaOverride where
  gsi : Nat
  flags : BitVec 16
  valid : Bool

/-- What `HctInitializeIoApic` found: the entries of `HctGsiTable` below
`HctGsiCount`, and the overrides of the ISA lines; `apicId` is the register
`APIC_REG_ID`. -/
structure IoApicRouting where
  hctGsiTable : List HctGsiEntry
  hctIsaOverrides : Nat → HctIsaOverride
  apicId : BitVec 32

/-- `ioApicRegister` has the registers of every I/O APIC by controller and number. -/
structure IsrState (Interrupt Handler : Type) where
  hctIsrBitmap : Nat → BitVec 8
  hctInternalTable : Nat → HctInterruptInternal Handler
  hctExternalTable : Nat → HctInterruptExternal Interrupt Handler
  interrupt : Interrupt → KInterrupt
  ioApicRegister : Nat → Nat → BitVec 32

section Bitmap

def hctIsIsrRegistered (map : Nat → BitVec 8) (vector : Nat) : Bool :=
  (map (vector >>> 3) &&& 1#8 <<< (vector &&& 7)) != 0#8

def hctSetIsrBitmap (map : Nat → BitVec 8) (vector : Nat) : Nat → BitVec 8 :=
  Function.update map (vector >>> 3) (map (vector >>> 3) ||| 1#8 <<< (vector &&& 7))

def hctClearIsrBitmap (map : Nat → BitVec 8) (vector : Nat) : Nat → BitVec 8 :=
  Function.update map (vector >>> 3) (map (vector >>> 3) &&& ~~~(1#8 <<< (vector &&& 7)))

theorem shift_three (vector : Nat) : vector >>> 3 = vector / 8 := Nat.shiftRight_eq_div_pow vector 3

theorem and_seven (vector : Nat) : vector &&& 7 = vector % 8 := Nat.and_two_pow_sub_one_eq_mod vector 3

theorem hctIsIsrRegistered_eq : hctIsIsrRegistered = Packed.test := by
  funext map vector
  rw [hctIsIsrRegistered, Packed.test, shift_three, and_seven]

theorem hctSetIsrBitmap_eq : hctSetIsrBitmap = Packed.set := by
  funext map vector
  rw [hctSetIsrBitmap, Packed.set, shift_three, and_seven]

theorem hctClearIsrBitmap_eq : hctClearIsrBitmap = Packed.clear := by
  funext map vector
  rw [hctClearIsrBitmap, Packed.clear, shift_three, and_seven]

end Bitmap

variable {Interrupt Handler : Type} [DecidableEq Interrupt]

/-- An entry that is not in use, as `HctInitializeIsr` leaves it. -/
def unusedExternal (vector : Nat) : HctInterruptExternal Interrupt Handler :=
  ⟨none, none, vector, false, false, 0⟩

def hctInitializeIsr (s : IsrState Interrupt Handler) : IsrState Interrupt Handler :=
  { s with
    hctIsrBitmap := fun _ => 0#8
    hctInternalTable := fun i => ⟨i, false, none⟩
    hctExternalTable := fun i => unusedExternal (i + 0x20) }

section IoApic

def hctMaxIsaIrqs : Nat := 16
def ioApicRegRedirBase : Nat := 0x10
def ioApicRedirPolarity : BitVec 32 := 0x2000
def ioApicRedirTrigger : BitVec 32 := 0x8000
def ioApicRedirMasked : BitVec 32 := 0x10000

def hctpFindGsi (routing : IoApicRouting) (gsi : Nat) : Option HctGsiEntry :=
  routing.hctGsiTable.find? fun entry => entry.valid && entry.gsi == gsi

def hctTranslateIrqToGsi (routing : IoApicRouting) (irq : Nat) : Except VeaStatus (Nat × BitVec 16) :=
  let resolved := if irq < hctMaxIsaIrqs ∧ (routing.hctIsaOverrides irq).valid
    then ((routing.hctIsaOverrides irq).gsi, (routing.hctIsaOverrides irq).flags) else (irq, 0)
  if (hctpFindGsi routing resolved.1).isNone then .error .notFound else .ok resolved

def hctpIoApicWrite (s : IsrState Interrupt Handler) (controller register : Nat) (value : BitVec 32) :
    IsrState Interrupt Handler :=
  { s with
    ioApicRegister := Function.update s.ioApicRegister controller
      (Function.update (s.ioApicRegister controller) register value) }

def apicDestination (routing : IoApicRouting) : BitVec 32 := routing.apicId >>> 24 &&& 0xFF

def redirectionLow (vector : Nat) (polarity trigger : BitVec 16) (masked : Bool) : BitVec 32 :=
  let low := BitVec.ofNat 32 vector
  let low := if polarity = 3 then low ||| ioApicRedirPolarity else low
  let low := if trigger = 3 then low ||| ioApicRedirTrigger else low
  if masked then low ||| ioApicRedirMasked else low

def hctSetGsiRedirection (routing : IoApicRouting) (s : IsrState Interrupt Handler) (gsi vector : Nat)
    (flags : BitVec 16) (masked : Bool) : IsrState Interrupt Handler × VeaStatus :=
  if vector < 0x20 ∨ 0xFF ≤ vector then (s, .invalidParameter)
  else match hctpFindGsi routing gsi with
    | none => (s, .notFound)
    | some entry =>
      let polarity := flags &&& 3
      let trigger := flags >>> 2 &&& 3
      if polarity = 2 ∨ trigger = 2 then (s, .invalidParameter)
      else
        let controller := entry.controllerIndex
        let register := ioApicRegRedirBase + entry.pin * 2
        -- the entry stays masked while its two words are written
        let s := hctpIoApicWrite s controller register (s.ioApicRegister controller register ||| ioApicRedirMasked)
        let s := hctpIoApicWrite s controller (register + 1) (apicDestination routing <<< 24)
        (hctpIoApicWrite s controller register (redirectionLow vector polarity trigger masked), .success)

end IoApic

def hctIrqVectorToIsrVector (irq : Nat) : Nat := irq + 0x30

def hctConvertVectorToIrql (vector : Nat) : Nat := vector >>> 4

def IsrState.setExternal (s : IsrState Interrupt Handler) (index : Nat)
    (entry : HctInterruptExternal Interrupt Handler) : IsrState Interrupt Handler :=
  { s with hctExternalTable := Function.update s.hctExternalTable index entry }

/-- The interrupt records its vector, and the bit of the vector is set. -/
def IsrState.claim (s : IsrState Interrupt Handler) (interrupt : Interrupt) (vector : Nat) :
    IsrState Interrupt Handler :=
  { s with
    interrupt := Function.update s.interrupt interrupt { s.interrupt interrupt with vector := vector }
    hctIsrBitmap := hctSetIsrBitmap s.hctIsrBitmap vector }

/-- The fields that the failure exit and the disconnection reset; the vector stays. -/
def HctInterruptExternal.reset (entry : HctInterruptExternal Interrupt Handler) :
    HctInterruptExternal Interrupt Handler :=
  { entry with interrupt := none, handler := none, isSystemInterrupt := false, irql := 0, used := false }

def hctConnectInterruptToIsr (routing : IoApicRouting) (s : IsrState Interrupt Handler)
    (interrupt : Option Interrupt) (irqVector : Nat) : IsrState Interrupt Handler × VeaStatus :=
  match interrupt with
  | none => (s, .invalidParameter)
  | some interrupt =>
    if (s.interrupt interrupt).connectionType ≠ .interruptLineBased then (s, .invalidParameter)
    else if 0xBF - 0x30 < irqVector then (s, .invalidParameter)
    else
      let isrVector := hctIrqVectorToIsrVector irqVector
      if 0xFF < isrVector then (s, .invalidParameter)
      else if hctIsIsrRegistered s.hctIsrBitmap isrVector then (s, .kInterruptOccupied)
      else match hctTranslateIrqToGsi routing irqVector with
        | .error status => (s, status)
        | .ok (gsi, gsiFlags) =>
          let index := isrVector - 0x20
          let s := s.setExternal index { s.hctExternalTable index with
            interrupt := some interrupt, handler := none, vector := isrVector,
            isSystemInterrupt := false, used := true }
          let (s, status) := hctSetGsiRedirection routing s gsi isrVector gsiFlags false
          if !status.isSuccess then (s.setExternal index (s.hctExternalTable index).reset, status)
          else (s.claim interrupt isrVector, .success)

/-- The entry is reset, and the bit of its vector is cleared. -/
def IsrState.release (s : IsrState Interrupt Handler) (vector : Nat) : IsrState Interrupt Handler :=
  { s.setExternal (vector - 0x20) (s.hctExternalTable (vector - 0x20)).reset with
    hctIsrBitmap := hctClearIsrBitmap s.hctIsrBitmap vector }

def hctDisconnectInterruptFromIsr (routing : IoApicRouting) (s : IsrState Interrupt Handler)
    (interrupt : Option Interrupt) : IsrState Interrupt Handler × VeaStatus :=
  match interrupt with
  | none => (s, .invalidParameter)
  | some interrupt =>
    let isrVector := (s.interrupt interrupt).vector
    if isrVector < 0x20 ∨ 0xFF < isrVector then (s, .invalidParameter)
    else
      let external := s.hctExternalTable (isrVector - 0x20)
      if !external.used ∨ external.isSystemInterrupt ∨ external.interrupt ≠ some interrupt then
        (s, .notFound)
      else match (s.interrupt interrupt).connectionType with
        | .interruptLineBased =>
          if 0xBF - 0x30 < (s.interrupt interrupt).irqVector then (s, .invalidParameter)
          else match hctTranslateIrqToGsi routing (s.interrupt interrupt).irqVector with
            | .error status => (s, status)
            | .ok (gsi, gsiFlags) =>
              let (s, status) := hctSetGsiRedirection routing s gsi isrVector gsiFlags true
              if !status.isSuccess then (s, status) else (s.release isrVector, .success)
        | .interruptMessageBased => (s.release isrVector, .success)
        | .interruptExtendedMessageBased => (s, .invalidParameter)

def hctRegisterSystemIsr (s : IsrState Interrupt Handler) (isrVector : Nat) (handlerRoutine : Option Handler) :
    IsrState Interrupt Handler × VeaStatus :=
  if isrVector < 0x20 ∨ 0xFF < isrVector then (s, .invalidParameter)
  else if hctIsIsrRegistered s.hctIsrBitmap isrVector then (s, .kInterruptOccupied)
  else
    let s := s.setExternal (isrVector - 0x20)
      ⟨none, handlerRoutine, isrVector, true, true, hctConvertVectorToIrql isrVector⟩
    ({ s with hctIsrBitmap := hctSetIsrBitmap s.hctIsrBitmap isrVector }, .success)

def hctMsiAddressBase : BitVec 32 := 0xFEE00000

/-- `writable` when there is a message to be filled; the last component is what it is filled with. -/
def hctConnectMessageInterrupt (routing : IoApicRouting) (s : IsrState Interrupt Handler)
    (interrupt : Option Interrupt) (irql : Nat) (writable : Bool) :
    IsrState Interrupt Handler × VeaStatus × Option KInterruptMessage :=
  match interrupt with
  | none => (s, .invalidParameter, none)
  | some interrupt =>
    if !writable ∨ irql < 3 ∨ 0xB < irql then (s, .invalidParameter, none)
    else if (s.interrupt interrupt).connectionType ≠ .interruptMessageBased then (s, .invalidParameter, none)
    else
      let low := irql <<< 4
      let high := irql <<< 4 ||| 0xF
      match (List.range' low (high + 1 - low)).find? fun vector => !hctIsIsrRegistered s.hctIsrBitmap vector with
      | none => (s, .kInterruptOccupied, none)
      | some vector =>
        let s := s.setExternal (vector - 0x20) ⟨some interrupt, none, vector, false, true, 0⟩
        (s.claim interrupt vector, .success,
          some ⟨hctMsiAddressBase ||| apicDestination routing <<< 12, 0,
            BitVec.ofNat 32 vector, BitVec.ofNat 32 vector⟩)

def hctRegisterInterruptToIsr (s : IsrState Interrupt Handler) (vector : Nat) (handlerRoutine : Option Handler) :
    IsrState Interrupt Handler × VeaStatus :=
  if 0x19 < vector then (s, .invalidParameter)
  else if hctIsIsrRegistered s.hctIsrBitmap vector then (s, .kInterruptOccupied)
  else
    ({ s with
      hctInternalTable := Function.update s.hctInternalTable vector ⟨vector, true, handlerRoutine⟩
      hctIsrBitmap := hctSetIsrBitmap s.hctIsrBitmap vector }, .success)

end VeaOS.Hct
