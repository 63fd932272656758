import VeaOS.Foundation.Runs
import VeaOS.Hct.InterruptTable

/-! Runs of connections and disconnections. A vector is taken and given back
together with its bit, and an entry that is not in use is blank; the
redirection entry of a line only ends up masked. -/
namespace VeaOS.Hct
open Transition Function
variable {Interrupt Handler : Type} [DecidableEq Interrupt]

inductive IsrAction (Interrupt Handler : Type) where
  | connectInterrupt (interrupt : Option Interrupt) (irqVector : Nat)
  | disconnectInterrupt (interrupt : Option Interrupt)
  | registerSystemIsr (isrVector : Nat) (handlerRoutine : Option Handler)
  | connectMessage (interrupt : Option Interrupt) (irql : Nat) (writable : Bool)
  | registerInterrupt (vector : Nat) (handlerRoutine : Option Handler)

def isrStep (routing : IoApicRouting) (s : IsrState Interrupt Handler) :
    IsrAction Interrupt Handler → IsrState Interrupt Handler × VeaStatus
  | .connectInterrupt interrupt irqVector => hctConnectInterruptToIsr routing s interrupt irqVector
  | .disconnectInterrupt interrupt => hctDisconnectInterruptFromIsr routing s interrupt
  | .registerSystemIsr isrVector handlerRoutine => hctRegisterSystemIsr s isrVector handlerRoutine
  | .connectMessage interrupt irql writable =>
    let result := hctConnectMessageInterrupt routing s interrupt irql writable
    (result.1, result.2.1)
  | .registerInterrupt vector handlerRoutine => hctRegisterInterruptToIsr s vector handlerRoutine

def IsrAction.connects : IsrAction Interrupt Handler → Option Interrupt
  | .connectInterrupt interrupt _ => interrupt
  | .connectMessage interrupt _ _ => interrupt
  | _ => none

def IsrAction.disconnects : IsrAction Interrupt Handler → Option Interrupt
  | .disconnectInterrupt interrupt => interrupt
  | _ => none

/-- `holders` are the interrupts that a vector was given to and not taken from since. -/
structure IsrRun (Interrupt Handler : Type) where
  state : IsrState Interrupt Handler
  holders : Nat → List Interrupt

def holdersAfter (run : IsrRun Interrupt Handler) (action : IsrAction Interrupt Handler)
    (next : IsrState Interrupt Handler) : Nat → List Interrupt :=
  match action.connects, action.disconnects with
  | some i, _ =>
    Function.update run.holders (next.interrupt i).vector (i :: run.holders (next.interrupt i).vector)
  | none, some i =>
    Function.update run.holders (run.state.interrupt i).vector
      ((run.holders (run.state.interrupt i).vector).erase i)
  | none, none => run.holders

def isrRunStep (routing : IoApicRouting) (run : IsrRun Interrupt Handler)
    (action : IsrAction Interrupt Handler) : IsrRun Interrupt Handler × VeaStatus :=
  let result := isrStep routing run.state action
  (⟨result.1, if result.2.isSuccess then holdersAfter run action result.1 else run.holders⟩, result.2)

def IsrRunStep (routing : IoApicRouting) (run : IsrRun Interrupt Handler)
    (action : IsrAction Interrupt Handler) (next : IsrRun Interrupt Handler) : Prop :=
  (isrRunStep routing run action).1 = next

def initialIsrRun (s : IsrState Interrupt Handler) : IsrRun Interrupt Handler :=
  ⟨hctInitializeIsr s, fun _ => []⟩

section Statement

/-- The vectors of the processor and the external ones have a table each; the
vectors between them have no entry. -/
def InUse (s : IsrState Interrupt Handler) (vector : Nat) : Bool :=
  if vector ≤ 0x19 then (s.hctInternalTable vector).used
  else if 0x20 ≤ vector then (s.hctExternalTable (vector - 0x20)).used
  else false

structure VectorsKept (run : IsrRun Interrupt Handler) : Prop where
  allocated {vector : Nat} (within : vector ≤ 0xFF) :
    hctIsIsrRegistered run.state.hctIsrBitmap vector = InUse run.state vector
  owned (vector) : (run.holders vector).length ≤ 1

def SameTables (s t : IsrState Interrupt Handler) : Prop :=
  t.hctIsrBitmap = s.hctIsrBitmap ∧ t.hctInternalTable = s.hctInternalTable ∧
    t.hctExternalTable = s.hctExternalTable

def FailingConnectKeeps (routing : IoApicRouting) (s : IsrState Interrupt Handler) : Prop :=
  (∀ interrupt irqVector, (hctConnectInterruptToIsr routing s interrupt irqVector).2.isSuccess = false →
      SameTables s (hctConnectInterruptToIsr routing s interrupt irqVector).1) ∧
    ∀ interrupt irql writable, (hctConnectMessageInterrupt routing s interrupt irql writable).2.1.isSuccess = false →
      SameTables s (hctConnectMessageInterrupt routing s interrupt irql writable).1

/-- The interrupt is neither connected nor disconnected. -/
def Spares (routing : IoApicRouting) (interrupt : Interrupt) (run : IsrRun Interrupt Handler)
    (action : IsrAction Interrupt Handler) : Prop :=
  action.connects = some interrupt ∨ action.disconnects = some interrupt →
    (isrRunStep routing run action).2.isSuccess = false

/-- The state after a disconnection has the tables of `u`, where it was made,
but for the vector that was given back: that one is as in `s`. -/
structure Restores (vector : Nat) (s u t : IsrState Interrupt Handler) : Prop where
  bits (w) : hctIsIsrRegistered t.hctIsrBitmap w =
    if w = vector then hctIsIsrRegistered s.hctIsrBitmap w else hctIsIsrRegistered u.hctIsrBitmap w
  entries : t.hctExternalTable =
    Function.update u.hctExternalTable (vector - 0x20) (s.hctExternalTable (vector - 0x20))
  internal : t.hctInternalTable = u.hctInternalTable

/-- The redirection entry of a line is masked and has the vector that it had, and the
disconnection of a message changes no redirection entry. -/
def LineMasked (routing : IoApicRouting) (interrupt : Interrupt) (u : IsrState Interrupt Handler)
    (registers : Nat → Nat → BitVec 32) : Prop :=
  match (u.interrupt interrupt).connectionType with
  | .interruptLineBased => ∃ gsi flags entry,
      hctTranslateIrqToGsi routing (u.interrupt interrupt).irqVector = .ok (gsi, flags) ∧
      hctpFindGsi routing gsi = some entry ∧
      registers entry.controllerIndex (ioApicRegRedirBase + entry.pin * 2) =
        redirectionLow (u.interrupt interrupt).vector (flags &&& 3) (flags >>> 2 &&& 3) true
  | _ => registers = u.ioApicRegister

/-- The line is connected by the number that the interrupt records, as
`KsConnectInterrupt` does. -/
def OnOwnLine (s : IsrState Interrupt Handler) (interrupt : Interrupt) :
    IsrAction Interrupt Handler → Prop
  | .connectInterrupt _ irqVector => (s.interrupt interrupt).irqVector = irqVector
  | _ => True

/-- What a disconnection does after the connection it belongs to, whatever else
was done in between. -/
def DisconnectRestores (routing : IoApicRouting) (run : IsrRun Interrupt Handler) : Prop :=
  ∀ connection interrupt, connection.connects = some interrupt →
    (isrRunStep routing run connection).2.isSuccess = true →
    ∀ rest between, Run (Guarded (Spares routing interrupt) (IsrRunStep routing))
        (isrRunStep routing run connection).1 rest between →
      let vector := ((isrRunStep routing run connection).1.state.interrupt interrupt).vector
      let result := hctDisconnectInterruptFromIsr routing between.state (some interrupt)
      (OnOwnLine run.state interrupt connection → result.2.isSuccess = true) ∧
        (result.2.isSuccess = true → Restores vector run.state between.state result.1 ∧
          LineMasked routing interrupt between.state result.1.ioApicRegister ∧
          (rest = [] → SameTables run.state result.1))

end Statement

/-- What the bits and the entries have to do with each other. -/
structure IsrKept (s : IsrState Interrupt Handler) : Prop where
  allocated {vector : Nat} (within : vector ≤ 0xFF) : hctIsIsrRegistered s.hctIsrBitmap vector = InUse s vector
  numbered (index) : (s.hctExternalTable index).vector = index + 0x20
  blank {index} (unused : (s.hctExternalTable index).used = false) :
    s.hctExternalTable index = unusedExternal (index + 0x20)

/-- The holders of an external vector are the interrupt of its entry. -/
structure HoldersKept (run : IsrRun Interrupt Handler) : Prop extends IsrKept run.state where
  held (vector) : run.holders vector =
    if 0x20 ≤ vector then (run.state.hctExternalTable (vector - 0x20)).interrupt.toList else []

section Redirection
variable {routing : IoApicRouting} {s : IsrState Interrupt Handler} {gsi vector : Nat} {flags : BitVec 16}
  {masked : Bool}

theorem hctTranslateIrqToGsi_refuses (translated : hctTranslateIrqToGsi routing irq = .error status) :
    status.isSuccess = false := by
  unfold hctTranslateIrqToGsi at translated
  dsimp only at translated
  by_cases missing : (hctpFindGsi routing (if irq < hctMaxIsaIrqs ∧ (routing.hctIsaOverrides irq).valid
      then ((routing.hctIsaOverrides irq).gsi, (routing.hctIsaOverrides irq).flags) else (irq, 0)).1).isNone
  · rw [if_pos missing] at translated
    cases translated
    rfl
  · rw [if_neg missing] at translated
    cases translated

/-- A redirection that succeeds writes registers only, one that fails nothing. -/
inductive Redirects (routing : IoApicRouting) (s : IsrState Interrupt Handler) (gsi vector : Nat)
    (flags : BitVec 16) (masked : Bool) :
    IsrState Interrupt Handler × VeaStatus → Prop
  | refused (unsuccessful : status.isSuccess = false) : Redirects routing s gsi vector flags masked (s, status)
  | routed (entry : HctGsiEntry) (registers : Nat → Nat → BitVec 32) (found : hctpFindGsi routing gsi = some entry)
      (word : registers entry.controllerIndex (ioApicRegRedirBase + entry.pin * 2) =
        redirectionLow vector (flags &&& 3) (flags >>> 2 &&& 3) masked) :
      Redirects routing s gsi vector flags masked ({ s with ioApicRegister := registers }, .success)

omit [DecidableEq Interrupt] in
theorem hctSetGsiRedirection_redirects :
    Redirects routing s gsi vector flags masked (hctSetGsiRedirection routing s gsi vector flags masked) := by
  rw [hctSetGsiRedirection]
  by_cases outside : vector < 0x20 ∨ 0xFF ≤ vector
  · rw [if_pos outside]
    exact .refused rfl
  · rw [if_neg outside]
    cases found : hctpFindGsi routing gsi with
    | none => exact .refused rfl
    | some entry =>
      dsimp only
      by_cases reserved : flags &&& 3 = 2 ∨ flags >>> 2 &&& 3 = 2
      · rw [if_pos reserved]
        exact .refused rfl
      · rw [if_neg reserved]
        refine .routed entry _ found ?_
        simp only [hctpIoApicWrite, update_self]

omit [DecidableEq Interrupt] in
theorem hctSetGsiRedirection_status (s t : IsrState Interrupt Handler) (masked other : Bool) :
    (hctSetGsiRedirection routing s gsi vector flags masked).2 =
      (hctSetGsiRedirection routing t gsi vector flags other).2 := by
  unfold hctSetGsiRedirection
  split_ifs
  · rfl
  · cases hctpFindGsi routing gsi with
    | none => rfl
    | some entry =>
      dsimp only
      split_ifs <;> rfl

end Redirection

/-- The entry of an interrupt that is connected. -/
def connectedExternal (interrupt : Interrupt) (vector : Nat) : HctInterruptExternal Interrupt Handler :=
  ⟨some interrupt, none, vector, false, true, 0⟩

/-- What an action does to the state, and what it returns. -/
inductive IsrEffect (routing : IoApicRouting) (s : IsrState Interrupt Handler) (action : IsrAction Interrupt Handler) :
    IsrState Interrupt Handler × VeaStatus → Prop
  | refused (unsuccessful : status.isSuccess = false) : IsrEffect routing s action (s, status)
  | connected (interrupt : Interrupt) (vector : Nat) (registers : Nat → Nat → BitVec 32)
      (connects : action.connects = some interrupt) (low : 0x20 ≤ vector) (high : vector ≤ 0xFF)
      (free : hctIsIsrRegistered s.hctIsrBitmap vector = false) :
      IsrEffect routing s action
        (({ s.setExternal (vector - 0x20) (connectedExternal interrupt vector) with
          ioApicRegister := registers } : IsrState Interrupt Handler).claim interrupt vector, .success)
  | disconnected (interrupt : Interrupt) (registers : Nat → Nat → BitVec 32)
      (disconnects : action = .disconnectInterrupt (some interrupt))
      (low : 0x20 ≤ (s.interrupt interrupt).vector) (high : (s.interrupt interrupt).vector ≤ 0xFF)
      (used : (s.hctExternalTable ((s.interrupt interrupt).vector - 0x20)).used = true)
      (owner : (s.hctExternalTable ((s.interrupt interrupt).vector - 0x20)).interrupt = some interrupt)
      (masked : LineMasked routing interrupt s registers) :
      IsrEffect routing s action
        (({ s with ioApicRegister := registers } : IsrState Interrupt Handler).release
          (s.interrupt interrupt).vector, .success)
  | system (vector : Nat) (handler : Option Handler) (irql : Nat)
      (registers : action = .registerSystemIsr vector handler) (low : 0x20 ≤ vector) (high : vector ≤ 0xFF)
      (free : hctIsIsrRegistered s.hctIsrBitmap vector = false) :
      IsrEffect routing s action
        ({ s.setExternal (vector - 0x20) ⟨none, handler, vector, true, true, irql⟩ with
          hctIsrBitmap := hctSetIsrBitmap s.hctIsrBitmap vector }, .success)
  | processor (vector : Nat) (handler : Option Handler)
      (registers : action = .registerInterrupt vector handler) (high : vector ≤ 0x19)
      (free : hctIsIsrRegistered s.hctIsrBitmap vector = false) :
      IsrEffect routing s action
        ({ s with
          hctInternalTable := Function.update s.hctInternalTable vector ⟨vector, true, handler⟩
          hctIsrBitmap := hctSetIsrBitmap s.hctIsrBitmap vector }, .success)

section Effects
variable {routing : IoApicRouting} {s : IsrState Interrupt Handler}

omit [DecidableEq Interrupt] in
theorem IsrKept.entry_of_free (kept : IsrKept s) (low : 0x20 ≤ vector) (high : vector ≤ 0xFF)
    (free : hctIsIsrRegistered s.hctIsrBitmap vector = false) :
    s.hctExternalTable (vector - 0x20) = unusedExternal vector := by
  have unused := (kept.allocated high).symm.trans free
  rw [InUse, if_neg (by omega), if_pos low] at unused
  rw [kept.blank unused, Nat.sub_add_cancel low]

theorem IsrKept.connectInterrupt_effect (kept : IsrKept s) (interrupt : Option Interrupt) (irqVector : Nat) :
    IsrEffect routing s (.connectInterrupt interrupt irqVector)
      (hctConnectInterruptToIsr routing s interrupt irqVector) := by
  unfold hctConnectInterruptToIsr
  cases interrupt with
  | none => exact .refused rfl
  | some interrupt =>
    dsimp only
    split_ifs with line range wide occupied
    · exact .refused rfl
    · exact .refused rfl
    · exact .refused rfl
    · exact .refused rfl
    · cases translated : hctTranslateIrqToGsi routing irqVector with
      | error status => exact .refused (hctTranslateIrqToGsi_refuses translated)
      | ok target =>
        obtain ⟨gsi, gsiFlags⟩ := target
        dsimp only
        have low : 0x20 ≤ hctIrqVectorToIsrVector irqVector := by
          unfold hctIrqVectorToIsrVector
          omega
        have high : hctIrqVectorToIsrVector irqVector ≤ 0xFF := by omega
        have free := Bool.eq_false_of_not_eq_true occupied
        have entry := kept.entry_of_free low high free
        generalize hctIrqVectorToIsrVector irqVector = vector at low high free entry ⊢
        have redirects : Redirects routing (s.setExternal (vector - 0x20) (connectedExternal interrupt vector))
            gsi vector gsiFlags false (hctSetGsiRedirection routing (s.setExternal (vector - 0x20)
              (connectedExternal interrupt vector)) gsi vector gsiFlags false) :=
          hctSetGsiRedirection_redirects
        have written : ({ s.hctExternalTable (vector - 0x20) with
            interrupt := some interrupt, handler := none, vector := vector,
            isSystemInterrupt := false, used := true } : HctInterruptExternal Interrupt Handler) =
            connectedExternal interrupt vector := by
          rw [entry]
          rfl
        rw [written]
        generalize hctSetGsiRedirection routing _ gsi vector gsiFlags false = result at redirects ⊢
        cases redirects with
        | @refused status unsuccessful =>
          dsimp only
          rw [unsuccessful]
          have restored : (s.setExternal (vector - 0x20) (connectedExternal interrupt vector)).setExternal
              (vector - 0x20) ((s.setExternal (vector - 0x20)
                (connectedExternal interrupt vector)).hctExternalTable (vector - 0x20)).reset = s := by
            have blank : ((s.setExternal (vector - 0x20)
                (connectedExternal interrupt vector)).hctExternalTable (vector - 0x20)).reset =
                s.hctExternalTable (vector - 0x20) := by
              dsimp only [IsrState.setExternal]
              rw [update_self, entry]
              rfl
            rw [blank]
            simp only [IsrState.setExternal, update_idem, update_eq_self]
          rw [restored]
          exact .refused unsuccessful
        | routed entry registers found word =>
          exact .connected interrupt vector registers rfl low high free

theorem connectMessage_effect (interrupt : Option Interrupt) (irql : Nat) (writable : Bool) :
    IsrEffect routing s (.connectMessage interrupt irql writable)
      (isrStep routing s (.connectMessage interrupt irql writable)) := by
  unfold isrStep hctConnectMessageInterrupt
  cases interrupt with
  | none => exact .refused rfl
  | some interrupt =>
    dsimp only
    split_ifs with invalid other
    · exact .refused rfl
    · exact .refused rfl
    · cases found : (List.range' (irql <<< 4) ((irql <<< 4 ||| 0xF) + 1 - irql <<< 4)).find? fun vector =>
          !hctIsIsrRegistered s.hctIsrBitmap vector with
      | none => exact .refused rfl
      | some vector =>
        have member := List.mem_of_find?_eq_some found
        have free := List.find?_some found
        rw [List.mem_range'_1] at member
        have shifted : irql <<< 4 = irql * 16 := Nat.shiftLeft_eq irql 4
        have highest : irql <<< 4 ||| 0xF = irql * 16 + 15 := by
          rw [← Nat.shiftLeft_add_eq_or_of_lt (by decide : 0xF < 2 ^ 4), shifted]
        exact .connected interrupt vector s.ioApicRegister rfl (by omega) (by omega) (by simpa using free)

theorem disconnectInterrupt_effect (interrupt : Option Interrupt) :
    IsrEffect routing s (.disconnectInterrupt interrupt) (hctDisconnectInterruptFromIsr routing s interrupt) := by
  unfold hctDisconnectInterruptFromIsr
  cases interrupt with
  | none => exact .refused rfl
  | some interrupt =>
    dsimp only
    by_cases range : (s.interrupt interrupt).vector < 0x20 ∨ 0xFF < (s.interrupt interrupt).vector
    · rw [if_pos range]
      exact .refused rfl
    rw [if_neg range]
    split
    · exact .refused rfl
    · next missing =>
      simp only [Bool.not_eq_true', not_or, Bool.not_eq_false, Bool.not_eq_true, ne_eq, not_not] at missing
      obtain ⟨used, system, owner⟩ := missing
      cases based : (s.interrupt interrupt).connectionType with
      | interruptMessageBased =>
        refine .disconnected interrupt s.ioApicRegister rfl (by omega) (by omega) used owner ?_
        rw [LineMasked, based]
      | interruptExtendedMessageBased => exact .refused rfl
      | interruptLineBased =>
        dsimp only
        by_cases wide : 0xBF - 0x30 < (s.interrupt interrupt).irqVector
        · rw [if_pos wide]
          exact .refused rfl
        · rw [if_neg wide]
          cases translated : hctTranslateIrqToGsi routing (s.interrupt interrupt).irqVector with
          | error status => exact .refused (hctTranslateIrqToGsi_refuses translated)
          | ok target =>
            dsimp only
            have redirects : Redirects routing s target.1 (s.interrupt interrupt).vector target.2 true (hctSetGsiRedirection routing s target.1
                (s.interrupt interrupt).vector target.2 true) := hctSetGsiRedirection_redirects
            generalize hctSetGsiRedirection routing s _ _ _ true = result at redirects ⊢
            cases redirects with
            | @refused status unsuccessful =>
              dsimp only
              rw [unsuccessful]
              exact .refused unsuccessful
            | routed entry registers found word =>
              refine .disconnected interrupt registers rfl (by omega) (by omega) used owner ?_
              rw [LineMasked, based]
              exact ⟨target.1, target.2, entry, translated, found, word⟩

theorem registerSystemIsr_effect (isrVector : Nat) (handler : Option Handler) :
    IsrEffect routing s (.registerSystemIsr isrVector handler) (hctRegisterSystemIsr s isrVector handler) := by
  unfold hctRegisterSystemIsr
  split_ifs with range occupied
  · exact .refused rfl
  · exact .refused rfl
  · exact .system isrVector handler _ rfl (by omega) (by omega) (Bool.eq_false_of_not_eq_true occupied)

theorem registerInterrupt_effect (vector : Nat) (handler : Option Handler) :
    IsrEffect routing s (.registerInterrupt vector handler) (hctRegisterInterruptToIsr s vector handler) := by
  unfold hctRegisterInterruptToIsr
  split_ifs with range occupied
  · exact .refused rfl
  · exact .refused rfl
  · exact .processor vector handler rfl (by omega) (Bool.eq_false_of_not_eq_true occupied)

theorem IsrKept.step_effect (kept : IsrKept s) (action : IsrAction Interrupt Handler) :
    IsrEffect routing s action (isrStep routing s action) := by
  cases action with
  | connectInterrupt interrupt irqVector => exact kept.connectInterrupt_effect interrupt irqVector
  | disconnectInterrupt interrupt => exact disconnectInterrupt_effect interrupt
  | registerSystemIsr isrVector handler => exact registerSystemIsr_effect isrVector handler
  | connectMessage interrupt irql writable => exact connectMessage_effect interrupt irql writable
  | registerInterrupt vector handler => exact registerInterrupt_effect vector handler

end Effects

section Bits
variable {map : Nat → BitVec 8}

theorem registered_set (map : Nat → BitVec 8) (v w : Nat) :
    hctIsIsrRegistered (hctSetIsrBitmap map v) w = (hctIsIsrRegistered map w || decide (v = w)) := by
  rw [hctIsIsrRegistered_eq, hctSetIsrBitmap_eq, Packed.test_set (by decide)]

theorem registered_clear (map : Nat → BitVec 8) (v w : Nat) :
    hctIsIsrRegistered (hctClearIsrBitmap map v) w = (hctIsIsrRegistered map w && !decide (v = w)) := by
  rw [hctIsIsrRegistered_eq, hctClearIsrBitmap_eq, Packed.test_clear (by decide)]

theorem bitmap_eq {a b : Nat → BitVec 8} (alike : ∀ v, hctIsIsrRegistered a v = hctIsIsrRegistered b v) : a = b :=
  Packed.eq_of_test (w := 8) (by decide) (by rwa [hctIsIsrRegistered_eq] at alike)

end Bits

section Invariant
variable {s t : IsrState Interrupt Handler}

omit [DecidableEq Interrupt] in
theorem IsrKept.write (kept : IsrKept s) (low : 0x20 ≤ v) (used : Bool)
    (external : t.hctExternalTable = update s.hctExternalTable (v - 0x20) entry)
    (internal : t.hctInternalTable = s.hctInternalTable)
    (bits : ∀ w, hctIsIsrRegistered t.hctIsrBitmap w =
      if w = v then used else hctIsIsrRegistered s.hctIsrBitmap w)
    (number : entry.vector = v) (inUse : entry.used = used)
    (blank : used = false → entry = unusedExternal v) : IsrKept t where
  allocated {w} within := by
    rw [bits w, InUse, external, internal]
    by_cases same : w = v
    · rw [if_pos same, same, if_neg (by omega), if_pos low, update_self, inUse]
    · rw [if_neg same, kept.allocated within, InUse]
      split_ifs
      · rfl
      · rw [update_of_ne (by omega)]
      · rfl
  numbered index := by
    rw [external]
    by_cases same : index = v - 0x20
    · rw [same, update_self, number, Nat.sub_add_cancel low]
    · rw [update_of_ne same, kept.numbered]
  blank {index} unused := by
    rw [external] at unused ⊢
    by_cases same : index = v - 0x20
    · rw [same, update_self] at unused ⊢
      rw [blank (inUse.symm.trans unused), Nat.sub_add_cancel low]
    · rw [update_of_ne same] at unused ⊢
      exact kept.blank unused

omit [DecidableEq Interrupt] in
theorem IsrKept.reset (kept : IsrKept s) (low : 0x20 ≤ v) :
    (s.hctExternalTable (v - 0x20)).reset = unusedExternal v := by
  have number := kept.numbered (v - 0x20)
  rw [Nat.sub_add_cancel low] at number
  rw [HctInterruptExternal.reset, number]
  rfl

theorem IsrKept.effect (kept : IsrKept s) (effect : IsrEffect routing s action (t, status)) : IsrKept t := by
  cases effect with
  | refused unsuccessful => exact kept
  | connected interrupt v registers connects low high free =>
    refine kept.write low true rfl rfl (fun w => ?_) rfl rfl (fun unused => by cases unused)
    rw [IsrState.claim, registered_set]
    by_cases same : w = v
    · simp [same]
    · simp [same, Ne.symm same, IsrState.setExternal]
  | disconnected interrupt registers disconnects low high used owner masked =>
    generalize (s.interrupt interrupt).vector = v at low high used owner
    refine kept.write low false rfl rfl (fun w => ?_) ?_ rfl fun _ => kept.reset low
    · rw [IsrState.release, registered_clear]
      by_cases same : w = v
      · simp [same]
      · simp [same, Ne.symm same]
    · rw [show (_ : HctInterruptExternal Interrupt Handler) = _ from kept.reset low]
      rfl
  | system v handler irql registers low high free =>
    refine kept.write low true rfl rfl (fun w => ?_) rfl rfl (fun unused => by cases unused)
    rw [registered_set]
    by_cases same : w = v
    · simp [same]
    · simp [same, Ne.symm same]
  | processor v handler registers high free =>
    refine ⟨fun {w} within => ?_, kept.numbered, kept.blank⟩
    rw [registered_set, InUse, kept.allocated within, InUse]
    by_cases same : v = w
    · subst same
      simp [high]
    · by_cases inside : w ≤ 0x19
      · simp [inside, same, Ne.symm same]
      · simp [inside, same]

end Invariant

section Holders
variable {run : IsrRun Interrupt Handler} {t : IsrState Interrupt Handler}

omit [DecidableEq Interrupt] in
theorem HoldersKept.write (kept : HoldersKept run) (low : 0x20 ≤ v)
    (external : t.hctExternalTable = update run.state.hctExternalTable (v - 0x20) e)
    (holds : holders = update run.holders v e.interrupt.toList) (w : Nat) :
    holders w = if 0x20 ≤ w then (t.hctExternalTable (w - 0x20)).interrupt.toList else [] := by
  rw [holds, external]
  by_cases same : w = v
  · subst same
    rw [update_self, if_pos low, update_self]
  · rw [update_of_ne same, kept.held]
    split_ifs
    · rw [update_of_ne (by omega)]
    · rfl

theorem HoldersKept.effect (kept : HoldersKept run) (effect : IsrEffect routing run.state action (t, status)) :
    HoldersKept ⟨t, if status.isSuccess then holdersAfter run action t else run.holders⟩ := by
  refine ⟨kept.toIsrKept.effect effect, ?_⟩
  cases effect with
  | refused unsuccessful =>
    dsimp only
    rw [unsuccessful]
    exact kept.held
  | connected interrupt v registers connects low high free =>
    refine kept.write (e := connectedExternal interrupt v) low rfl ?_
    have free := kept.held v
    rw [if_pos low, kept.entry_of_free low high ‹_›] at free
    simp only [VeaStatus.isSuccess, holdersAfter, connects, IsrState.claim, update_self, free]
    rfl
  | disconnected interrupt registers disconnects low high used owner masked =>
    subst disconnects
    refine kept.write (e := unusedExternal (run.state.interrupt interrupt).vector) low ?_ ?_
    · rw [← kept.reset low]
      rfl
    · have holder := kept.held (run.state.interrupt interrupt).vector
      rw [if_pos low, owner] at holder
      simp only [VeaStatus.isSuccess, holdersAfter, IsrAction.connects, IsrAction.disconnects, holder]
      simp [unusedExternal]
  | system v handler irql registers low high free =>
    subst registers
    refine kept.write (e := ⟨none, handler, v, true, true, irql⟩) low rfl ?_
    have free := kept.held v
    rw [if_pos low, kept.entry_of_free low high ‹_›] at free
    change run.holders = update run.holders v []
    rw [show ([] : List Interrupt) = run.holders v from free.symm, update_eq_self]
  | processor v handler registers high free =>
    subst registers
    exact kept.held

theorem HoldersKept.step (kept : HoldersKept run) (stepped : IsrRunStep routing run action next) :
    HoldersKept next := by
  cases stepped
  exact kept.effect (kept.toIsrKept.step_effect action)

omit [DecidableEq Interrupt] in
theorem HoldersKept.initial (s : IsrState Interrupt Handler) : HoldersKept (initialIsrRun s) where
  allocated {v} within := by
    have clear : hctIsIsrRegistered (fun _ => 0#8) v = false := by
      rw [hctIsIsrRegistered_eq]
      exact Packed.test_zero (by decide) v
    refine clear.trans ?_
    unfold InUse
    split_ifs <;> rfl
  numbered _ := rfl
  blank _ := rfl
  held v := by
    split_ifs <;> rfl

omit [DecidableEq Interrupt] in
theorem HoldersKept.vectors (kept : HoldersKept run) : VectorsKept run where
  allocated := kept.allocated
  owned v := by
    rw [kept.held]
    split_ifs
    · exact Option.length_toList_le
    · exact Nat.zero_le 1

end Holders

section Restoration
variable {routing : IoApicRouting} {run next : IsrRun Interrupt Handler} {s t : IsrState Interrupt Handler}

theorem IsrEffect.unchanged (effect : IsrEffect routing s action result)
    (unsuccessful : result.2.isSuccess = false) : result.1 = s := by
  cases effect with
  | refused => rfl
  | connected | disconnected | system | processor => cases unsuccessful

theorem IsrKept.failing_connect (kept : IsrKept s) : FailingConnectKeeps routing s := by
  refine ⟨fun interrupt irqVector failed => ?_, fun interrupt irql writable failed => ?_⟩
  · have effect : IsrEffect routing s _ _ := kept.connectInterrupt_effect interrupt irqVector
    rw [effect.unchanged failed]
    exact ⟨rfl, rfl, rfl⟩
  · have effect : IsrEffect routing s _ _ := connectMessage_effect interrupt irql writable
    rw [show (hctConnectMessageInterrupt routing s interrupt irql writable).1 = s from effect.unchanged failed]
    exact ⟨rfl, rfl, rfl⟩

/-- The interrupt is connected, and its entry is in the table. -/
structure Connected (interrupt : Interrupt) (record : KInterrupt) (s : IsrState Interrupt Handler) : Prop where
  recorded : s.interrupt interrupt = record
  low : 0x20 ≤ record.vector
  high : record.vector ≤ 0xFF
  entry : s.hctExternalTable (record.vector - 0x20) = connectedExternal interrupt record.vector

omit [DecidableEq Interrupt] in
theorem Connected.registered (connected : Connected interrupt record s) (kept : IsrKept s) :
    hctIsIsrRegistered s.hctIsrBitmap record.vector = true := by
  have low := connected.low
  rw [kept.allocated connected.high, InUse, if_neg (by omega), if_pos low, connected.entry]
  rfl

theorem Connected.step (connected : Connected interrupt record run.state) (kept : HoldersKept run)
    (spared : Spares routing interrupt run action) (stepped : IsrRunStep routing run action next) :
    Connected interrupt record next.state := by
  cases stepped
  have effect : IsrEffect routing run.state action _ := kept.toIsrKept.step_effect action
  have registered := connected.registered kept.toIsrKept
  have low := connected.low
  unfold Spares at spared
  unfold isrRunStep at spared ⊢
  dsimp only at spared ⊢
  generalize isrStep routing run.state action = result at effect spared ⊢
  cases effect with
  | refused unsuccessful => exact connected
  | connected other vector registers connects vectorLow vectorHigh free =>
    have apart : interrupt ≠ other := by
      rintro rfl
      cases spared (.inl connects)
    have elsewhere : record.vector ≠ vector := fun same => by
      rw [← same, registered] at free
      cases free
    refine ⟨?_, connected.low, connected.high, ?_⟩
    · exact (update_of_ne apart _ _).trans connected.recorded
    · exact (update_of_ne (by omega) _ _).trans connected.entry
  | disconnected other registers disconnects vectorLow vectorHigh used owner masked =>
    have apart : interrupt ≠ other := by
      rintro rfl
      cases spared (.inr (by rw [disconnects]; rfl))
    have elsewhere : record.vector ≠ (run.state.interrupt other).vector := fun same => by
      rw [← same, connected.entry] at owner
      exact apart (Option.some.inj owner)
    refine ⟨connected.recorded, connected.low, connected.high, ?_⟩
    exact (update_of_ne (by omega) _ _).trans connected.entry
  | system vector handler irql registers vectorLow vectorHigh free =>
    have elsewhere : record.vector ≠ vector := fun same => by
      rw [← same, registered] at free
      cases free
    refine ⟨connected.recorded, connected.low, connected.high, ?_⟩
    exact (update_of_ne (by omega) _ _).trans connected.entry
  | processor vector handler registers vectorHigh free =>
    exact ⟨connected.recorded, connected.low, connected.high, connected.entry⟩

/-- A line that was connected can be translated and routed. -/
def LineRouted (routing : IoApicRouting) (irqVector : Nat) : Prop :=
  irqVector ≤ 0xBF - 0x30 ∧ ∃ gsi flags, hctTranslateIrqToGsi routing irqVector = .ok (gsi, flags) ∧
    ∀ (t : IsrState Interrupt Handler) masked,
      (hctSetGsiRedirection routing t gsi (hctIrqVectorToIsrVector irqVector) flags masked).2.isSuccess = true

theorem connects_routed (connects : action.connects = some interrupt)
    (succeeded : (isrStep routing s action).2.isSuccess = true) :
    ((s.interrupt interrupt).connectionType = .interruptMessageBased ∨
      (s.interrupt interrupt).connectionType = .interruptLineBased ∧ ∃ irqVector,
        action = .connectInterrupt (some interrupt) irqVector ∧
        ((isrStep routing s action).1.interrupt interrupt).vector = hctIrqVectorToIsrVector irqVector ∧
        @LineRouted Interrupt Handler routing irqVector) := by
  cases action with
  | disconnectInterrupt | registerSystemIsr | registerInterrupt => cases connects
  | connectMessage other irql writable =>
    cases connects
    left
    unfold isrStep hctConnectMessageInterrupt at succeeded
    dsimp only at succeeded
    by_contra other
    rw [if_pos other] at succeeded
    split_ifs at succeeded
    all_goals cases succeeded
  | connectInterrupt other irqVector =>
    cases connects
    right
    unfold isrStep hctConnectInterruptToIsr at succeeded ⊢
    dsimp only at succeeded ⊢
    split_ifs at succeeded ⊢ with line range wide occupied
    · cases succeeded
    · cases succeeded
    · cases succeeded
    · cases succeeded
    · refine ⟨not_not.mp line, irqVector, rfl, ?_⟩
      cases translated : hctTranslateIrqToGsi routing irqVector with
      | error status =>
        rw [translated] at succeeded
        cases (hctTranslateIrqToGsi_refuses translated).symm.trans succeeded
      | ok target =>
        obtain ⟨gsi, flags⟩ := target
        rw [translated] at succeeded
        dsimp only at succeeded ⊢
        generalize s.setExternal _ _ = written at succeeded ⊢
        cases ends : (hctSetGsiRedirection routing written gsi (hctIrqVectorToIsrVector irqVector) flags
            false).2.isSuccess with
        | false =>
          rw [ends] at succeeded
          cases ends.symm.trans succeeded
        | true =>
          refine ⟨?_, by omega, gsi, flags, translated, fun t masked => ?_⟩
          · simp only [Bool.not_true, Bool.false_eq_true, if_false, IsrState.claim,
              update_self]
          · rw [hctSetGsiRedirection_status t written masked false, ends]

theorem Connected.disconnects (connected : Connected interrupt record s)
    (routed : record.connectionType = .interruptMessageBased ∨
      record.connectionType = .interruptLineBased ∧
        record.vector = hctIrqVectorToIsrVector record.irqVector ∧
        @LineRouted Interrupt Handler routing record.irqVector) :
    (hctDisconnectInterruptFromIsr routing s (some interrupt)).2.isSuccess = true := by
  have low := connected.low
  have high := connected.high
  unfold hctDisconnectInterruptFromIsr
  dsimp only
  rw [connected.recorded, if_neg (by omega), connected.entry, if_neg (by simp [connectedExternal])]
  obtain messages | ⟨line, number, range, gsi, flags, translated, redirects⟩ := routed
  · rw [messages]
    rfl
  · rw [line]
    dsimp only
    rw [if_neg (by omega), translated]
    dsimp only
    rw [number, redirects]
    rfl

theorem IsrKept.connect (kept : IsrKept s) (connects : action.connects = some interrupt)
    (succeeded : (isrStep routing s action).2.isSuccess = true)
    (ended : (isrStep routing s action).1 = t) (recorded : t.interrupt interrupt = record) :
    Connected interrupt record t ∧ hctIsIsrRegistered s.hctIsrBitmap record.vector = false ∧
      record.connectionType = (s.interrupt interrupt).connectionType ∧
      record.irqVector = (s.interrupt interrupt).irqVector ∧
      t.hctInternalTable = s.hctInternalTable ∧
      t.hctIsrBitmap = hctSetIsrBitmap s.hctIsrBitmap record.vector ∧
      t.hctExternalTable = update s.hctExternalTable (record.vector - 0x20)
        (connectedExternal interrupt record.vector) := by
  have effect : IsrEffect routing s action _ := kept.step_effect action
  subst ended recorded
  generalize isrStep routing s action = result at effect succeeded ⊢
  cases effect with
  | refused unsuccessful => cases unsuccessful.symm.trans succeeded
  | connected other vector registers connectsOther low high free =>
    cases connects.symm.trans connectsOther
    have recorded : (({ s.setExternal (vector - 0x20) (connectedExternal interrupt vector) with
        ioApicRegister := registers } : IsrState Interrupt Handler).claim interrupt vector).interrupt interrupt =
        { s.interrupt interrupt with vector := vector } := update_self ..
    dsimp only
    rw [recorded]
    exact ⟨⟨recorded, low, high, update_self ..⟩, free, rfl, rfl, rfl, rfl, rfl⟩
  | disconnected other registers disconnects =>
    subst disconnects
    cases connects
  | system vector handler irql registers | processor vector handler registers =>
    subst registers
    cases connects

theorem IsrKept.disconnect (kept : IsrKept s)
    (succeeded : (hctDisconnectInterruptFromIsr routing s (some interrupt)).2.isSuccess = true) :
    let t := (hctDisconnectInterruptFromIsr routing s (some interrupt)).1
    let vector := (s.interrupt interrupt).vector
    LineMasked routing interrupt s t.ioApicRegister ∧ t.hctInternalTable = s.hctInternalTable ∧
      t.hctIsrBitmap = hctClearIsrBitmap s.hctIsrBitmap vector ∧
      t.hctExternalTable = update s.hctExternalTable (vector - 0x20) (unusedExternal vector) := by
  have effect : IsrEffect routing s _ _ := disconnectInterrupt_effect (some interrupt)
  generalize hctDisconnectInterruptFromIsr routing s (some interrupt) = result at effect succeeded ⊢
  cases effect with
  | refused unsuccessful => cases unsuccessful.symm.trans succeeded
  | connected other vector registers connects => cases connects
  | disconnected other registers disconnects low high used owner masked =>
    cases disconnects
    exact ⟨masked, rfl, rfl, congrArg (update _ _) (kept.reset low)⟩
  | system vector handler irql registers => cases registers
  | processor vector handler registers => cases registers

theorem HoldersKept.restores (kept : HoldersKept run) : DisconnectRestores routing run := by
  intro connection interrupt connects succeeded rest between ended vector result
  obtain ⟨connected, free, based, line, internal, bitmap, external⟩ :=
    kept.toIsrKept.connect connects succeeded rfl rfl
  have arrived := ended.invariant (P := fun u => HoldersKept u ∧ Connected interrupt _ u.state)
    (fun inv stepped => ⟨inv.1.step stepped.2, inv.2.step inv.1 stepped.1 stepped.2⟩)
    ⟨kept.step rfl, connected⟩
  obtain ⟨keptThere, connectedThere⟩ := arrived
  have blank := kept.entry_of_free connected.low connected.high free
  refine ⟨fun ownLine => connectedThere.disconnects ?_, fun disconnected => ?_⟩
  · obtain messages | ⟨lineBased, irqVector, same, number, routed⟩ := connects_routed connects succeeded
    · exact .inl (based.trans messages)
    · subst same
      refine .inr ⟨based.trans lineBased, ?_⟩
      rw [line, show (run.state.interrupt interrupt).irqVector = irqVector from ownLine]
      exact ⟨number, routed⟩
  · obtain ⟨masked, internalThere, bitmapThere, externalThere⟩ := keptThere.toIsrKept.disconnect disconnected
    rw [show (between.state.interrupt interrupt).vector = vector from
      congrArg KInterrupt.vector connectedThere.recorded] at bitmapThere externalThere
    have restores : Restores vector run.state between.state result.1 := by
      refine ⟨fun w => ?_, externalThere.trans (congrArg _ blank.symm), internalThere⟩
      rw [show result.1.hctIsrBitmap = _ from bitmapThere, registered_clear]
      by_cases same : w = vector
      · rw [if_pos same, same, show hctIsIsrRegistered run.state.hctIsrBitmap vector = false from free]
        simp
      · rw [if_neg same]
        simp [Ne.symm same]
    refine ⟨restores, masked, fun atOnce => ?_⟩
    subst atOnce
    cases ended
    have bitmap : (isrRunStep routing run connection).1.state.hctIsrBitmap =
      hctSetIsrBitmap run.state.hctIsrBitmap vector := bitmap
    have external : (isrRunStep routing run connection).1.state.hctExternalTable =
      update run.state.hctExternalTable (vector - 0x20) (connectedExternal interrupt vector) := external
    refine ⟨bitmap_eq fun w => ?_, internalThere.trans internal, ?_⟩
    · rw [restores.bits]
      by_cases same : w = vector
      · rw [if_pos same]
      · rw [if_neg same, bitmap, registered_set]
        simp [Ne.symm same]
    · rw [restores.entries, external, update_idem, update_eq_self]

/-- In every state that is reached, the bits, the entries and the holders of the
vectors agree, a connection that fails changes no table, and a disconnection
restores the tables as they were before its connection and masks its line. -/
theorem interrupt_table_runs (s : IsrState Interrupt Handler)
    (executed : Run (IsrRunStep routing) (initialIsrRun s) actions run) :
    VectorsKept run ∧ FailingConnectKeeps routing run.state ∧ DisconnectRestores routing run := by
  have kept := executed.invariant (P := HoldersKept) (fun kept stepped => kept.step stepped)
    (HoldersKept.initial s)
  exact ⟨kept.vectors, kept.toIsrKept.failing_connect, kept.restores⟩

end Restoration

/-- One I/O APIC with two pins, whose line 0 is overridden to the second. -/
def sampleRouting : IoApicRouting :=
  ⟨[⟨1, 0, 1, true⟩, ⟨2, 0, 2, true⟩], fun irq => ⟨2, 0, irq == 0⟩, 0⟩

/-- Lines by their number, with the registers as `HctInitializeIoApic` leaves them. -/
def sampleIsrState : IsrState Nat Unit :=
  ⟨fun _ => 0, fun i => ⟨i, false, none⟩, fun i => unusedExternal (i + 0x20), fun i => ⟨.interruptLineBased, i, 0⟩,
    fun _ register => if register % 2 = 0 then 0x20 ||| ioApicRedirMasked else 0⟩

theorem interrupt_table_runs_sample :
    VectorsKept (isrRunStep sampleRouting (initialIsrRun sampleIsrState) (.connectInterrupt (some 1) 1)).1 ∧
      FailingConnectKeeps sampleRouting
        (isrRunStep sampleRouting (initialIsrRun sampleIsrState) (.connectInterrupt (some 1) 1)).1.state ∧
      DisconnectRestores sampleRouting
        (isrRunStep sampleRouting (initialIsrRun sampleIsrState) (.connectInterrupt (some 1) 1)).1 :=
  interrupt_table_runs sampleIsrState (.single rfl)

/-- After the disconnection the redirection entry of a line still has the vector
of the interrupt, which it did not have before the connection. -/
theorem redirection_not_restored :
    let s := (initialIsrRun sampleIsrState).state
    let connected := hctConnectInterruptToIsr sampleRouting s (some 1) 1
    let disconnected := hctDisconnectInterruptFromIsr sampleRouting connected.1 (some 1)
    connected.2 = .success ∧ disconnected.2 = .success ∧
      s.ioApicRegister 0 0x12 = 0x10020 ∧ disconnected.1.ioApicRegister 0 0x12 = 0x10031 := by
  decide

end VeaOS.Hct
