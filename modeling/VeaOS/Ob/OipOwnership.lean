import VeaOS.Ob.OipRequests
import VeaOS.Ob.OipStackRuns

/-! Who gives a packet back. A packet is freed by its completion if the builder
said so, and by the sender if it does so itself; what the sender does after the
call depends on whether the target left the request pending, and the completion
of a pending request goes on while the sender does. -/
namespace VeaOS.Ob
open Transition List OipResource
variable {Object Routine : Type}

section Senders

/-- What a sender does with the packet after the call. -/
inductive SenderStep where
  /-- `KsWaitForSingleObject` on the event of the sender -/
  | waitForEvent
  /-- The result is read from the packet. -/
  | readStatusInformation
  | freeOip
  deriving DecidableEq

/-- The rest of `ObioSynchronusCallByStack`, by whether the call returned `STATUS_PENDING`. -/
def obioSynchronusCallByStack (pending : Bool) : List SenderStep :=
  if pending then [.waitForEvent] else [.readStatusInformation]

def pmpAskDiskGeometry (pending : Bool) : List SenderStep :=
  (if pending then [.waitForEvent] else [.readStatusInformation]) ++ [.freeOip]

def pmpAskHarddiskNumber (pending : Bool) : List SenderStep :=
  if pending then [.waitForEvent] else [.readStatusInformation, .freeOip]

def pmpReadSectors (pending : Bool) : List SenderStep :=
  if pending then [.waitForEvent] else []

def fatReadDiskSectors (pending : Bool) : List SenderStep :=
  if pending then [.waitForEvent] else []

inductive OipSender where
  | synchronusCallByStack
  | askDiskGeometry
  | askHarddiskNumber
  | readSectors
  | fatReadDiskSectors
  deriving DecidableEq

def OipSender.rest : OipSender → Bool → List SenderStep
  | .synchronusCallByStack => obioSynchronusCallByStack
  | .askDiskGeometry => pmpAskDiskGeometry
  | .askHarddiskNumber => pmpAskHarddiskNumber
  | .readSectors => pmpReadSectors
  | .fatReadDiskSectors => Ob.fatReadDiskSectors

/-- The packet that `ObioSynchronusCallByStack` allocates and fills from the caller's location. -/
def byStackPacket (stackDepth : Nat) (representable : stackDepth < 0x7FFFFFFF) (stack : OipStack Object Routine)
    (memory : Nat → BitVec 8) : OipState Object Routine :=
  let s : OipState Object Routine :=
    { oip := { obioAllocateOip stackDepth representable with
        statusInformation := ⟨.notSupported, 0⟩
        userInfoBlock := true
        userEvent := true }
      systemBytes := memory
      userBytes := memory
      copied := 0
      infoBlock := []
      eventSets := 0
      freed := [] }
  s.setNext stack

def ioctlDiskGetDriveGeometry : Nat := 0x70000

/-- The packet of `PmpAskDiskGeometry`, whose buffers are both a variable of the sender. -/
def diskGeometryPacket (target : Object) (length : Nat) (memory : Nat → BitVec 8) : OipState Object Routine :=
  let s : OipState Object Routine :=
    { oip := { obioAllocateOip 1 one_representable with
        userBuffer := true
        systemBuffer := true
        userInfoBlock := true
        userEvent := true }
      systemBytes := memory
      userBytes := memory
      copied := 0
      infoBlock := []
      eventSets := 0
      freed := [] }
  s.setNext { s.next with
    majorFunction := oipMjDeviceControl
    targetObject := some target
    parameters := .deviceControl ioctlDiskGetDriveGeometry 0 length false }

inductive SentBy : OipSender → OipState Object Routine → Prop
  | byStack (stackDepth : Nat) (representable : stackDepth < 0x7FFFFFFF) (stack : OipStack Object Routine)
      (memory : Nat → BitVec 8) :
      SentBy .synchronusCallByStack (byStackPacket stackDepth representable stack memory)
  | diskGeometry (target : Object) (length : Nat) (memory : Nat → BitVec 8) :
      SentBy .askDiskGeometry (diskGeometryPacket target length memory)
  | harddiskNumber (request : DeviceIoControl) (event : request.event = true)
      (built : obioBuildDeviceIoControlRequest deviceObject stackCount representable request pool allocations =
        .built s) : SentBy .askHarddiskNumber s
  | readSectors (request : FsdRequest)
      (built : obioBuildSynchronusFsdRequest object stackCount representable request true pool allocations =
        .built s) : SentBy .readSectors s
  | fatReadDiskSectors (request : FsdRequest)
      (built : obioBuildSynchronusFsdRequest object stackCount representable request true pool allocations =
        .built s) : SentBy .fatReadDiskSectors s

end Senders

section Interleaving

/-- The stages of `ObioCompleteRequest`, each of which looks into the packet. -/
inductive CompletionStage where
  /-- The loop over the locations, with the location and the result it ends with -/
  | passLocations (last : Int) (result : OipInformation × (Nat → BitVec 8))
  | copyBack (requestMajor : Nat)
  | releaseBuffers
  | writeInfoBlock
  | setUserEvent
  | releaseOip

def CompletionStage.run : CompletionStage → OipState Object Routine → OipState Object Routine
  | .passLocations last result, s => s.moved last result
  | .copyBack requestMajor, s => Ob.copyBack s requestMajor
  | .releaseBuffers, s => Ob.releaseBuffers s
  | .writeInfoBlock, s => Ob.writeInfoBlock s
  | .setUserEvent, s => Ob.setUserEvent s
  | .releaseOip, s => Ob.releaseOip s

/-- A completion by where its loop ends and by the major function it noted. -/
structure Completion where
  last : Int
  result : OipInformation × (Nat → BitVec 8)
  requestMajor : Nat

def Completion.stages (c : Completion) : List CompletionStage :=
  [.passLocations c.last c.result, .copyBack c.requestMajor, .releaseBuffers, .writeInfoBlock, .setUserEvent,
    .releaseOip]

/-- `touchedFreed` records an access to the packet after it was freed. -/
structure Ownership (Object Routine : Type) where
  packet : OipState Object Routine
  sender : List SenderStep
  completion : List CompletionStage
  touchedFreed : Bool

inductive OipParty where
  | sender
  | completion
  deriving DecidableEq

def Ownership.touch (o : Ownership Object Routine) : Ownership Object Routine :=
  { o with touchedFreed := o.touchedFreed || decide (.oip ∈ o.packet.freed) }

def ownershipStep (o : Ownership Object Routine) : OipParty → Option (Ownership Object Routine)
  | .sender =>
    match o.sender with
    | [] => none
    | .waitForEvent :: rest => if 0 < o.packet.eventSets then some { o with sender := rest } else none
    | .readStatusInformation :: rest => some { o.touch with sender := rest }
    | .freeOip :: rest => some { o.touch with packet := obioFreeOip o.packet, sender := rest }
  | .completion =>
    match o.completion with
    | [] => none
    | stage :: rest => some { o.touch with packet := stage.run o.packet, completion := rest }

inductive TargetBehaviour where
  /-- It completes the request and returns. -/
  | completesBefore (completion : Completion) (status : OipStatus)
  /-- It returns a status and does not complete the request. -/
  | returnsOnly (status : OipStatus) (settled : status ≠ .pending)
  /-- It returns `STATUS_PENDING`, and the request is completed later. -/
  | completesLater (completion : Completion)

/-- The stages that are left of a completion are carried out one after the other. -/
def completeAll (o : Ownership Object Routine) : List CompletionStage → Ownership Object Routine
  | [] => { o with completion := [] }
  | stage :: rest => completeAll { o.touch with packet := stage.run o.packet } rest

/-- The sender and the completion as they are when the call returns. -/
def afterCall (sender : OipSender) (packet : OipState Object Routine) (target : Object) :
    TargetBehaviour → Ownership Object Routine
  | .completesBefore completion status =>
    completeAll ⟨(obioCallObject packet target true).1, sender.rest (status == .pending), [], false⟩
      completion.stages
  | .returnsOnly status _ => ⟨(obioCallObject packet target true).1, sender.rest (status == .pending), [], false⟩
  | .completesLater completion =>
    ⟨(obioCallObject packet target true).1, sender.rest true, completion.stages, false⟩

end Interleaving

section Statement

def Ownership.ended (o : Ownership Object Routine) : Prop := o.sender = [] ∧ o.completion = []

/-- The packet and the buffers that belong to it are freed once, and nobody
looks into it afterwards. -/
structure FreedOnce (packet : OipState Object Routine) (o : Ownership Object Routine) : Prop where
  oip : o.packet.freed.count .oip = 1
  systemBuffer : o.packet.freed.count .systemBuffer =
    (packet.oip.flags.deallocateBuffer && packet.oip.systemBuffer).toNat
  mdl : o.packet.freed.count .mdl = packet.oip.mdlAddress.toNat
  untouched : o.touchedFreed = false

/-- However the sender and the completion take their steps, both get to their
end, and then the packet was freed once. -/
def OwnedFrom (packet : OipState Object Routine) (o : Ownership Object Routine) : Prop :=
  (∃ schedule last, exec ownershipStep o schedule = some last ∧ last.ended) ∧
    ∀ schedule last, exec ownershipStep o schedule = some last → last.ended → FreedOnce packet last

def OwnedOnce (sender : OipSender) (packet : OipState Object Routine) (target : Object)
    (behaviour : TargetBehaviour) : Prop :=
  OwnedFrom packet (afterCall sender packet target behaviour)

/-- The styles of completion that each sender can bear. -/
def Bears : OipSender → TargetBehaviour → Prop
  | .synchronusCallByStack, _ => False
  | .askDiskGeometry, .completesLater _ => False
  | .askDiskGeometry, _ => True
  | .askHarddiskNumber, .completesBefore _ status => status = .pending
  | .askHarddiskNumber, _ => True
  | .readSectors, .returnsOnly _ _ => False
  | .readSectors, _ => True
  | .fatReadDiskSectors, .returnsOnly _ _ => False
  | .fatReadDiskSectors, _ => True

end Statement

section Schedules
variable {o last : Ownership Object Routine} {packet : OipState Object Routine}

theorem ownershipStep_sender (stepped : ownershipStep o .sender = some last) :
    last.completion = o.completion ∧ o.sender.length = last.sender.length + 1 := by
  unfold ownershipStep at stepped
  cases steps : o.sender with
  | nil =>
    rw [steps] at stepped
    cases stepped
  | cons step rest =>
    rw [steps] at stepped
    cases step with
    | waitForEvent =>
      dsimp only at stepped
      split_ifs at stepped
      cases stepped
      exact ⟨rfl, rfl⟩
    | readStatusInformation | freeOip =>
      cases stepped
      exact ⟨rfl, rfl⟩

theorem schedule_alone (alone : o.completion = []) (executed : exec ownershipStep o schedule = some last)
    (ended : last.ended) : schedule = replicate o.sender.length .sender := by
  induction schedule generalizing o with
  | nil =>
    cases executed
    rw [ended.1]
    rfl
  | cons party rest ih =>
    obtain ⟨next, stepped, continued⟩ := Option.bind_eq_some_iff.mp executed
    cases party with
    | completion =>
      rw [ownershipStep, alone] at stepped
      cases stepped
    | sender =>
      obtain ⟨same, shorter⟩ := ownershipStep_sender stepped
      rw [shorter, replicate_succ, ih (same.trans alone) continued]

theorem owned_alone (alone : o.completion = [])
    (executed : exec ownershipStep o (replicate o.sender.length .sender) = some last) (ended : last.ended) :
    OwnedFrom packet o ↔ FreedOnce packet last := by
  constructor
  · intro owned
    exact owned.2 _ last executed ended
  · intro freed
    refine ⟨⟨_, last, executed, ended⟩, fun schedule other executedOther endedOther => ?_⟩
    rw [schedule_alone alone executedOther endedOther] at executedOther
    cases executed.symm.trans executedOther
    exact freed

theorem completeAll_sender (stages : List CompletionStage) (sender : List SenderStep) :
    completeAll { o with sender := sender } stages = { completeAll o stages with sender := sender } := by
  induction stages generalizing o with
  | nil => rfl
  | cons stage rest ih => exact ih (o := { o.touch with packet := stage.run o.packet })

theorem completeAll_completion (stages completion : List CompletionStage) :
    completeAll { o with completion := completion } stages = completeAll o stages := by
  induction stages generalizing o with
  | nil => rfl
  | cons stage rest ih => exact ih (o := { o.touch with packet := stage.run o.packet })

theorem waiting_ends (waits : o.sender = [] ∨ o.sender = [.waitForEvent])
    (executed : exec ownershipStep o schedule = some last) (ended : last.ended) :
    last = { completeAll o o.completion with sender := [] } := by
  induction schedule generalizing o with
  | nil =>
    cases executed
    obtain ⟨sender, completion⟩ := ended
    rw [completion, completeAll]
    cases last
    cases sender
    cases completion
    rfl
  | cons party rest ih =>
    obtain ⟨next, stepped, continued⟩ := Option.bind_eq_some_iff.mp executed
    cases party with
    | sender =>
      obtain none | one := waits
      · rw [ownershipStep, none] at stepped
        cases stepped
      · rw [ownershipStep, one] at stepped
        dsimp only at stepped
        split_ifs at stepped
        cases stepped
        rw [ih (.inl rfl) continued, completeAll_sender]
    | completion =>
      rw [ownershipStep] at stepped
      cases stages : o.completion with
      | nil =>
        rw [stages] at stepped
        cases stepped
      | cons stage others =>
        rw [stages] at stepped
        cases stepped
        rw [ih (o := { o.touch with packet := stage.run o.packet, completion := others }) waits continued,
          completeAll_completion (o := { o.touch with packet := stage.run o.packet })]
        rfl

theorem exec_completeAll (stages rest : List CompletionStage) (left : o.completion = stages ++ rest) :
    exec ownershipStep o (replicate stages.length .completion) =
      some { completeAll o stages with completion := rest } := by
  induction stages generalizing o with
  | nil =>
    cases o
    cases left
    rfl
  | cons stage others ih =>
    have stepped : ownershipStep o .completion =
        some { o.touch with packet := stage.run o.packet, completion := others ++ rest } := by
      rw [ownershipStep, left]
      rfl
    rw [length_cons, replicate_succ, exec, stepped]
    refine (ih rfl).trans ?_
    rw [completeAll_completion (o := { o.touch with packet := stage.run o.packet })]
    rfl

end Schedules

section Resources
variable {s t packet : OipState Object Routine} {o : Ownership Object Routine}

/-- What decides which resources are freed, and what was freed. -/
structure SameResources (s t : OipState Object Routine) : Prop where
  flags : t.oip.flags = s.oip.flags
  systemBuffer : t.oip.systemBuffer = s.oip.systemBuffer
  mdlAddress : t.oip.mdlAddress = s.oip.mdlAddress
  userEvent : t.oip.userEvent = s.oip.userEvent
  freed : t.freed = s.freed
  eventSets : t.eventSets = s.eventSets

theorem obioCallObject_resources (s : OipState Object Routine) (target : Object) (interruptHandler : Bool) :
    SameResources s (obioCallObject s target interruptHandler).1 := by
  unfold obioCallObject
  dsimp only
  split_ifs
  all_goals exact ⟨rfl, rfl, rfl, rfl, rfl, rfl⟩

theorem copyBack_resources (s : OipState Object Routine) (major : Nat) : SameResources s (copyBack s major) := by
  unfold copyBack
  split_ifs
  all_goals exact ⟨rfl, rfl, rfl, rfl, rfl, rfl⟩

/-- The buffers of a packet, in the order in which its completion frees them. -/
def ownedBuffers (s : OipState Object Routine) : List OipResource :=
  (if s.oip.flags.deallocateBuffer && s.oip.systemBuffer then [.systemBuffer] else []) ++
    if s.oip.mdlAddress then [.mdl] else []

theorem obioFreeOip_freed (s : OipState Object Routine) :
    ∃ buffers, buffers.Perm (ownedBuffers s) ∧ (obioFreeOip s).freed = s.freed ++ buffers ++ [.oip] := by
  refine ⟨(if s.oip.mdlAddress then [.mdl] else []) ++
    (if s.oip.flags.deallocateBuffer && s.oip.systemBuffer then [.systemBuffer] else []),
    perm_append_comm, ?_⟩
  unfold obioFreeOip
  cases pages : s.oip.mdlAddress with
  | true =>
    cases buffer : s.oip.flags.deallocateBuffer && s.oip.systemBuffer with
    | true | false => simp [OipState.setOip, buffer]
  | false =>
    cases buffer : s.oip.flags.deallocateBuffer && s.oip.systemBuffer with
    | true => simp [OipState.setOip, buffer]
    | false => simp [buffer]

theorem releaseBuffers_freed (deallocates : s.oip.flags.deallocateOnCompletion = true) :
    (releaseBuffers s).freed = s.freed ++ ownedBuffers s ∧ ownedBuffers (releaseBuffers s) = [] ∧
      (releaseBuffers s).oip.flags = s.oip.flags := by
  unfold releaseBuffers ownedBuffers
  rw [if_pos deallocates]
  cases pages : s.oip.mdlAddress with
  | true =>
    cases buffer : s.oip.flags.deallocateBuffer && s.oip.systemBuffer with
    | true => simp [OipState.setOip, pages]
    | false => simp [OipState.setOip, pages, buffer]
  | false =>
    cases buffer : s.oip.flags.deallocateBuffer && s.oip.systemBuffer with
    | true => simp [OipState.setOip, pages]
    | false => simp [pages, buffer]

theorem tell_freed (s : OipState Object Routine) :
    (setUserEvent (writeInfoBlock s)).oip = s.oip ∧ (setUserEvent (writeInfoBlock s)).freed = s.freed := by
  refine ⟨by rw [setUserEvent_oip, writeInfoBlock_oip], ?_⟩
  unfold setUserEvent writeInfoBlock
  split_ifs <;> rfl

theorem finishRequest_freed (deallocates : s.oip.flags.deallocateOnCompletion = true) (major : Nat) :
    (finishRequest s major).freed = s.freed ++ ownedBuffers s ++ [.oip] := by
  have copy := copyBack_resources s major
  have owned : ownedBuffers (copyBack s major) = ownedBuffers s := by
    rw [ownedBuffers, copy.flags, copy.systemBuffer, copy.mdlAddress, ownedBuffers]
  obtain ⟨freed, none, flags⟩ := releaseBuffers_freed (s := copyBack s major) (by rw [copy.flags, deallocates])
  obtain ⟨oip, told⟩ := tell_freed (releaseBuffers (copyBack s major))
  rw [finishRequest, releaseOip, oip, flags, copy.flags, if_pos deallocates]
  obtain ⟨buffers, perm, last⟩ := obioFreeOip_freed (setUserEvent (writeInfoBlock (releaseBuffers (copyBack s major))))
  rw [ownedBuffers, oip, ← ownedBuffers, none, perm_nil] at perm
  rw [last, perm, append_nil, told, freed, owned, copy.freed]

theorem finishRequest_kept (kept : s.oip.flags.deallocateOnCompletion = false) (major : Nat) :
    (finishRequest s major).freed = s.freed ∧ ownedBuffers (finishRequest s major) = ownedBuffers s := by
  have copy := copyBack_resources s major
  have owned : ownedBuffers (copyBack s major) = ownedBuffers s := by
    rw [ownedBuffers, copy.flags, copy.systemBuffer, copy.mdlAddress, ownedBuffers]
  have same : releaseBuffers (copyBack s major) = copyBack s major := by
    rw [releaseBuffers, copy.flags, kept, if_neg (by decide)]
  obtain ⟨oip, told⟩ := tell_freed (copyBack s major)
  rw [finishRequest, same, releaseOip, oip, copy.flags, kept, if_neg (by decide)]
  refine ⟨told.trans copy.freed, ?_⟩
  rw [ownedBuffers, oip, ← ownedBuffers, owned]

structure Ready (deallocates signals : Bool) (packet : OipState Object Routine) : Prop where
  deallocates : packet.oip.flags.deallocateOnCompletion = deallocates
  event : packet.oip.userEvent = signals
  freed : packet.freed = []
  eventSets : packet.eventSets = 0

theorem freedOnce_of_perm (perm : buffers.Perm (ownedBuffers packet)) (freed : o.packet.freed = buffers ++ [.oip])
    (untouched : o.touchedFreed = false) : FreedOnce packet o := by
  have counts (resource : OipResource) : o.packet.freed.count resource =
      (ownedBuffers packet).count resource + [oip].count resource := by
    rw [freed, count_append, perm.count_eq]
  refine ⟨?_, ?_, ?_, untouched⟩
  all_goals rw [counts, ownedBuffers]
  all_goals cases packet.oip.flags.deallocateBuffer && packet.oip.systemBuffer <;>
    cases packet.oip.mdlAddress <;> rfl

end Resources

section Builders
variable {s p : OipState Object Routine} {frees signals : Bool}

theorem Ready.attachSystemBuffer (ready : Ready frees signals s) (length : Nat) :
    Ready frees signals (attachSystemBuffer s length) :=
  ⟨ready.deallocates, ready.event, ready.freed, ready.eventSets⟩

theorem Ready.fillSystemBuffer (ready : Ready frees signals s) (bytes : Nat → BitVec 8) (length : Nat) :
    Ready frees signals (fillSystemBuffer s bytes length) :=
  ⟨ready.deallocates, ready.event, ready.freed, ready.eventSets⟩

theorem Ready.setInputOperation (ready : Ready frees signals s) : Ready frees signals (setInputOperation s) :=
  ⟨ready.deallocates, ready.event, ready.freed, ready.eventSets⟩

theorem Ready.attachBuffered (ready : Ready frees signals p) (built : attachBuffered p request allocations = .built s) :
    Ready frees signals s := by
  unfold Ob.attachBuffered at built
  dsimp only at built
  split_ifs at built
  all_goals cases built
  · exact ready
  · exact ((ready.attachSystemBuffer _).fillSystemBuffer _ _).setInputOperation
  · exact (ready.attachSystemBuffer _).setInputOperation
  · exact (ready.attachSystemBuffer _).fillSystemBuffer _ _
  · exact ready.attachSystemBuffer _

theorem Ready.attachPages (ready : Ready frees signals p) (built : attachPages p request allocations = .built s) :
    Ready frees signals s := by
  unfold Ob.attachPages at built
  split_ifs at built
  all_goals cases built
  · exact ready
  · exact ⟨ready.deallocates, ready.event, ready.freed, ready.eventSets⟩

theorem Ready.attachDirect (ready : Ready frees signals p) (built : attachDirect p request allocations = .built s) :
    Ready frees signals s := by
  unfold Ob.attachDirect at built
  split_ifs at built
  · exact ready.attachPages built
  · exact ((ready.attachSystemBuffer _).fillSystemBuffer _ _).attachPages built

theorem deviceControl_ready {request : DeviceIoControl} (event : request.event = true)
    (built : obioBuildDeviceIoControlRequest deviceObject stackCount representable request pool allocations =
      .built s) : Ready true true s := by
  unfold obioBuildDeviceIoControlRequest at built
  cases deviceObject with
  | none => cases built
  | some deviceObject =>
    have ready : Ready true true (deviceControlPacket deviceObject stackCount representable request pool :
        OipState Object Routine) := ⟨rfl, event, rfl, rfl⟩
    dsimp only at built
    split_ifs at built
    · exact ready.attachBuffered built
    · exact ready.attachDirect built
    · cases built
      exact ⟨rfl, event, rfl, rfl⟩

theorem Ready.attachTransferBuffer (ready : Ready frees signals p)
    (built : attachTransferBuffer p request allocations = .built s) : Ready frees signals s := by
  unfold Ob.attachTransferBuffer at built
  dsimp only at built
  split_ifs at built
  all_goals cases built
  · exact ready
  · exact (ready.attachSystemBuffer _).fillSystemBuffer _ _
  · exact (ready.attachSystemBuffer _).setInputOperation

theorem Ready.attachTransferPages (ready : Ready frees signals p)
    (built : attachTransferPages p request allocations = .built s) : Ready frees signals s := by
  unfold Ob.attachTransferPages at built
  split_ifs at built
  all_goals cases built
  · exact ready
  · exact ⟨ready.deallocates, ready.event, ready.freed, ready.eventSets⟩

theorem asynchronous_ready {request : FsdRequest}
    (built : obioBuildAsynchronousFsdRequest object stackCount representable request pool allocations =
      .built s) : Ready true false s := by
  unfold obioBuildAsynchronousFsdRequest at built
  dsimp only at built
  split_ifs at built
  · exact Ready.attachTransferBuffer ⟨rfl, rfl, rfl, rfl⟩ built
  · exact Ready.attachTransferPages ⟨rfl, rfl, rfl, rfl⟩ built
  · exact Ready.attachTransferBuffer ⟨rfl, rfl, rfl, rfl⟩ built
  · cases built
    exact ⟨rfl, rfl, rfl, rfl⟩

theorem synchronus_ready {request : FsdRequest}
    (built : obioBuildSynchronusFsdRequest object stackCount representable request true pool allocations =
      .built s) : Ready true true s := by
  unfold obioBuildSynchronusFsdRequest at built
  cases result : obioBuildAsynchronousFsdRequest object stackCount representable request pool allocations with
  | refused | failed =>
    rw [result] at built
    cases built
  | built t =>
    rw [result] at built
    cases built
    have ready := asynchronous_ready result
    exact ⟨ready.deallocates, rfl, ready.freed, ready.eventSets⟩

def OipSender.deallocates : OipSender → Bool
  | .synchronusCallByStack | .askDiskGeometry => false
  | .askHarddiskNumber | .readSectors | .fatReadDiskSectors => true

theorem SentBy.ready {sender : OipSender} (sent : SentBy sender s) : Ready sender.deallocates true s := by
  cases sent with
  | byStack | diskGeometry => exact ⟨rfl, rfl, rfl, rfl⟩
  | harddiskNumber request event built => exact deviceControl_ready event built
  | readSectors request built | fatReadDiskSectors request built => exact synchronus_ready built

end Builders

section Ends
variable {packet s : OipState Object Routine} {o last : Ownership Object Routine} {frees : Bool}

theorem touch_live (live : .oip ∉ o.packet.freed) : o.touch = o := by
  rw [Ownership.touch, decide_eq_false live, Bool.or_false]

theorem completeAll_live (live : .oip ∉ o.packet.freed) (stage : CompletionStage) (rest : List CompletionStage) :
    completeAll o (stage :: rest) = completeAll { o with packet := stage.run o.packet } rest := by
  rw [completeAll, touch_live live]

/-- The stages before the packet itself is freed. -/
def Completion.toldStages (c : Completion) : List CompletionStage :=
  [.passLocations c.last c.result, .copyBack c.requestMajor, .releaseBuffers, .writeInfoBlock, .setUserEvent]

def Completion.told (c : Completion) (s : OipState Object Routine) : OipState Object Routine :=
  setUserEvent (writeInfoBlock (releaseBuffers (copyBack (s.moved c.last c.result) c.requestMajor)))

theorem Completion.told_live (c : Completion) (live : .oip ∉ s.freed) : .oip ∉ (c.told s).freed := by
  rw [Completion.told, (tell_freed _).2]
  by_cases deallocates : (copyBack (s.moved c.last c.result) c.requestMajor).oip.flags.deallocateOnCompletion = true
  · rw [(releaseBuffers_freed deallocates).1, mem_append, not_or, ownedBuffers, (copyBack_resources _ _).freed]
    refine ⟨live, ?_⟩
    split_ifs <;> decide
  · rw [releaseBuffers, if_neg deallocates, (copyBack_resources _ _).freed]
    exact live

theorem completeAll_told (live : .oip ∉ o.packet.freed) (c : Completion) :
    completeAll o c.toldStages = { o with packet := c.told o.packet, completion := [] } := by
  have copied : oip ∉ (copyBack (o.packet.moved c.last c.result) c.requestMajor).freed := by
    rw [(copyBack_resources _ _).freed]
    exact live
  have told := c.told_live live
  rw [Completion.told, (tell_freed _).2] at told
  have info : oip ∉
      (writeInfoBlock (releaseBuffers (copyBack (o.packet.moved c.last c.result) c.requestMajor))).freed := by
    unfold writeInfoBlock
    split_ifs
    · exact told
    · exact told
  refine (completeAll_live live ..).trans ?_
  refine (completeAll_live (o := { o with packet := o.packet.moved c.last c.result }) live ..).trans ?_
  refine (completeAll_live (o := { o with packet := copyBack _ c.requestMajor }) copied ..).trans ?_
  refine (completeAll_live (o := { o with packet := releaseBuffers _ }) told ..).trans ?_
  exact completeAll_live (o := { o with packet := writeInfoBlock _ }) info ..

theorem completeAll_append (first second : List CompletionStage) :
    completeAll o (first ++ second) = completeAll (completeAll o first) second := by
  induction first generalizing o with
  | nil => exact (completeAll_completion second []).symm
  | cons stage rest ih => exact ih

theorem completeAll_stages (live : .oip ∉ o.packet.freed) (c : Completion) :
    completeAll o c.stages =
      { o with packet := finishRequest (o.packet.moved c.last c.result) c.requestMajor, completion := [] } := by
  rw [show c.stages = c.toldStages ++ [.releaseOip] from rfl, completeAll_append, completeAll_told live]
  exact completeAll_live (o := { o with packet := c.told o.packet, completion := [] }) (c.told_live live) ..

structure Called (frees : Bool) (packet s : OipState Object Routine) : Prop extends Ready frees true s where
  buffers : ownedBuffers s = ownedBuffers packet

theorem Ready.called (ready : Ready frees true packet) (target : Object) :
    Called frees packet (obioCallObject packet target true).1 := by
  have same := obioCallObject_resources packet target true
  refine ⟨⟨?_, ?_, ?_, ?_⟩, ?_⟩
  · rw [same.flags, ready.deallocates]
  · rw [same.userEvent, ready.event]
  · rw [same.freed, ready.freed]
  · rw [same.eventSets, ready.eventSets]
  · rw [ownedBuffers, same.flags, same.systemBuffer, same.mdlAddress, ownedBuffers]

theorem Called.live (called : Called frees packet s) : .oip ∉ s.freed := by
  rw [called.freed]
  exact not_mem_nil

def Completion.finished (c : Completion) (s : OipState Object Routine) : OipState Object Routine :=
  finishRequest (s.moved c.last c.result) c.requestMajor

theorem Called.signalled (called : Called frees packet s) (c : Completion) : 0 < (c.finished s).eventSets := by
  have copy := copyBack_place (s.moved c.last c.result) c.requestMajor
  have buffers := releaseBuffers_place (copyBack (s.moved c.last c.result) c.requestMajor)
  have event : (s.moved c.last c.result).oip.userEvent = true := called.event
  rw [Completion.finished, finishRequest, (releaseOip_place _).eventSets, eventSets_told, buffers.userEvent,
    copy.userEvent, event]
  exact Nat.succ_pos _

theorem Called.freed_by_completion (called : Called true packet s) (c : Completion)
    (finished : o.packet = c.finished s) (untouched : o.touchedFreed = false) : FreedOnce packet o := by
  refine freedOnce_of_perm (Perm.of_eq called.buffers) ?_ untouched
  rw [finished, Completion.finished, finishRequest_freed (s := s.moved c.last c.result) called.deallocates]
  change s.freed ++ ownedBuffers s ++ [.oip] = _
  rw [called.freed, nil_append]

theorem Called.kept_by_completion (called : Called false packet s) (c : Completion) :
    (c.finished s).freed = [] ∧ ownedBuffers (c.finished s) = ownedBuffers packet := by
  obtain ⟨freed, buffers⟩ := finishRequest_kept (s := s.moved c.last c.result) called.deallocates c.requestMajor
  exact ⟨freed.trans called.freed, buffers.trans called.buffers⟩

theorem freed_by_sender (freed : s.freed = []) (buffers : ownedBuffers s = ownedBuffers packet)
    (finished : o.packet = obioFreeOip s) (untouched : o.touchedFreed = false) : FreedOnce packet o := by
  obtain ⟨order, perm, last⟩ := obioFreeOip_freed s
  refine freedOnce_of_perm (perm.trans (Perm.of_eq buffers)) ?_ untouched
  rw [finished, last, freed, nil_append]

theorem unfreed (freed : o.packet.freed = []) : ¬ FreedOnce packet o := by
  intro once
  have count := once.oip
  rw [freed] at count
  cases count

theorem exec_wait (signalled : 0 < s.eventSets) (steps : List SenderStep)
    (completion : List CompletionStage) (schedule : List OipParty) :
    exec ownershipStep ⟨s, .waitForEvent :: steps, completion, false⟩ (.sender :: schedule) =
      exec ownershipStep ⟨s, steps, completion, false⟩ schedule := by
  rw [exec, ownershipStep]
  dsimp only
  rw [if_pos signalled]
  rfl

theorem exec_read (live : .oip ∉ s.freed) (steps : List SenderStep)
    (completion : List CompletionStage) (schedule : List OipParty) :
    exec ownershipStep ⟨s, .readStatusInformation :: steps, completion, false⟩ (.sender :: schedule) =
      exec ownershipStep ⟨s, steps, completion, false⟩ schedule := by
  rw [exec, ownershipStep]
  dsimp only
  rw [touch_live (o := ⟨s, .readStatusInformation :: steps, completion, false⟩) live]
  rfl

theorem exec_free (live : .oip ∉ s.freed) (steps : List SenderStep)
    (completion : List CompletionStage) (schedule : List OipParty) :
    exec ownershipStep ⟨s, .freeOip :: steps, completion, false⟩ (.sender :: schedule) =
      exec ownershipStep ⟨obioFreeOip s, steps, completion, false⟩ schedule := by
  rw [exec, ownershipStep]
  dsimp only
  rw [touch_live (o := ⟨s, .freeOip :: steps, completion, false⟩) live]
  rfl

theorem Called.owned_later (called : Called frees packet s) (c : Completion) :
    OwnedFrom packet ⟨s, [.waitForEvent], c.stages, false⟩ ↔ FreedOnce packet ⟨c.finished s, [], [], false⟩ := by
  have all := completeAll_stages (o := ⟨s, [.waitForEvent], c.stages, false⟩) called.live c
  constructor
  · intro owned
    obtain ⟨schedule, last, executed, ended⟩ := owned.1
    have freed := owned.2 schedule last executed ended
    rw [waiting_ends (.inr rfl) executed ended, all] at freed
    exact freed
  · intro freed
    refine ⟨⟨replicate 6 .completion ++ [.sender], ⟨c.finished s, [], [], false⟩, ?_, rfl, rfl⟩,
      fun schedule last executed ended => ?_⟩
    · rw [exec_append, show 6 = c.stages.length from rfl, exec_completeAll c.stages [] rfl, all]
      exact exec_wait (called.signalled c) [] [] []
    · rw [waiting_ends (.inr rfl) executed ended, all]
      exact freed

theorem owned_settled (packet s : OipState Object Routine) (steps : List SenderStep)
    (executed : exec ownershipStep ⟨s, steps, [], false⟩ (replicate steps.length .sender) = some last)
    (ended : last.ended) : OwnedFrom packet ⟨s, steps, [], false⟩ ↔ FreedOnce packet last :=
  owned_alone rfl executed ended

end Ends

section Cases
variable {packet s : OipState Object Routine} {frees : Bool}

theorem owned_before (ready : Ready frees true packet) (sender : OipSender) (target : Object) (c : Completion)
    (status : OipStatus) (steps : List SenderStep) (rest : sender.rest (status == .pending) = steps) :
    OwnedOnce sender packet target (.completesBefore c status) ↔
      OwnedFrom packet ⟨c.finished (obioCallObject packet target true).1, steps, [], false⟩ := by
  subst rest
  rw [OwnedOnce, afterCall, completeAll_stages (ready.called target).live]
  exact Iff.rfl

theorem owned_only (sender : OipSender) (target : Object) (settled : status ≠ .pending) (steps : List SenderStep)
    (rest : sender.rest false = steps) : OwnedOnce sender packet target (.returnsOnly status settled) ↔
      OwnedFrom packet ⟨(obioCallObject packet target true).1, steps, [], false⟩ := by
  subst rest
  rw [OwnedOnce, afterCall, beq_eq_false_iff_ne.mpr settled]

theorem synchronusCallByStack_leaks (ready : Ready false true packet) (target : Object)
    (behaviour : TargetBehaviour) : ¬ OwnedOnce .synchronusCallByStack packet target behaviour := by
  have called := ready.called target
  cases behaviour with
  | completesBefore c status =>
    obtain ⟨freed, buffers⟩ := called.kept_by_completion c
    have live : oip ∉ (c.finished (obioCallObject packet target true).1).freed := by
      rw [freed]
      exact not_mem_nil
    by_cases pending : status = .pending
    · subst pending
      rw [owned_before ready _ target c _ [.waitForEvent] rfl,
        owned_settled packet _ _ (exec_wait (called.signalled c) [] [] []) ⟨rfl, rfl⟩]
      exact unfreed freed
    · rw [owned_before ready _ target c _ [.readStatusInformation] (by rw [beq_eq_false_iff_ne.mpr pending]; rfl),
        owned_settled packet _ _ (exec_read live [] [] []) ⟨rfl, rfl⟩]
      exact unfreed freed
  | returnsOnly status settled =>
    rw [owned_only _ target settled [.readStatusInformation] rfl,
      owned_settled packet _ _ (exec_read called.live [] [] []) ⟨rfl, rfl⟩]
    exact unfreed called.freed
  | completesLater c =>
    exact fun owned => unfreed (called.kept_by_completion c).1 ((called.owned_later c).mp owned)

theorem readers_leave (ready : Ready true true packet) (target : Object) (behaviour : TargetBehaviour)
    (sender : OipSender) (waits : sender.rest true = [.waitForEvent]) (leaves : sender.rest false = []) :
    OwnedOnce sender packet target behaviour ↔ ∀ status settled, behaviour ≠ .returnsOnly status settled := by
  have called := ready.called target
  cases behaviour with
  | completesBefore c status =>
    refine iff_of_true ?_ (fun _ _ same => by cases same)
    by_cases pending : status = .pending
    · subst pending
      rw [owned_before ready _ target c _ [.waitForEvent] waits,
        owned_settled packet _ _ (exec_wait (called.signalled c) [] [] []) ⟨rfl, rfl⟩]
      exact called.freed_by_completion c rfl rfl
    · rw [owned_before ready _ target c _ [] (by rw [beq_eq_false_iff_ne.mpr pending, leaves]),
        owned_settled packet _ _ rfl ⟨rfl, rfl⟩]
      exact called.freed_by_completion c rfl rfl
  | returnsOnly status settled =>
    refine iff_of_false ?_ (fun never => never status settled rfl)
    rw [owned_only _ target settled [] leaves, owned_settled packet _ _ rfl ⟨rfl, rfl⟩]
    exact unfreed called.freed
  | completesLater c =>
    refine iff_of_true ?_ (fun _ _ same => by cases same)
    rw [OwnedOnce, afterCall, waits]
    exact (called.owned_later c).mpr (called.freed_by_completion c rfl rfl)

theorem askHarddiskNumber_frees (ready : Ready true true packet) (target : Object) (behaviour : TargetBehaviour) :
    OwnedOnce .askHarddiskNumber packet target behaviour ↔ Bears .askHarddiskNumber behaviour := by
  have called := ready.called target
  cases behaviour with
  | completesBefore c status =>
    by_cases pending : status = .pending
    · subst pending
      refine iff_of_true ?_ rfl
      rw [owned_before ready _ target c _ [.waitForEvent] rfl,
        owned_settled packet _ _ (exec_wait (called.signalled c) [] [] []) ⟨rfl, rfl⟩]
      exact called.freed_by_completion c rfl rfl
    · refine iff_of_false ?_ pending
      rw [owned_before ready _ target c _ [.readStatusInformation, .freeOip]
          (by rw [beq_eq_false_iff_ne.mpr pending]; rfl), owned_settled packet _ _ rfl ⟨rfl, rfl⟩]
      have member : oip ∈ (c.finished (obioCallObject packet target true).1).freed := by
        have once := (called.freed_by_completion (o := ⟨_, [], [], false⟩) c rfl rfl).oip
        exact count_pos_iff.mp (once ▸ Nat.one_pos)
      intro once
      have untouched := once.untouched
      simp only [Ownership.touch, decide_eq_true member, Bool.or_true] at untouched
      cases untouched
  | returnsOnly status settled =>
    refine iff_of_true ?_ trivial
    rw [owned_only _ target settled [.readStatusInformation, .freeOip] rfl,
      owned_settled packet _ _ ((exec_read called.live [.freeOip] [] [.sender]).trans
        (exec_free called.live [] [] [])) ⟨rfl, rfl⟩]
    exact freed_by_sender called.freed called.buffers rfl rfl
  | completesLater c =>
    exact iff_of_true ((called.owned_later c).mpr (called.freed_by_completion c rfl rfl)) trivial

theorem askDiskGeometry_frees (ready : Ready false true packet) (target : Object) (behaviour : TargetBehaviour) :
    OwnedOnce .askDiskGeometry packet target behaviour ↔ Bears .askDiskGeometry behaviour := by
  have called := ready.called target
  cases behaviour with
  | completesBefore c status =>
    refine iff_of_true ?_ trivial
    obtain ⟨freed, buffers⟩ := called.kept_by_completion c
    have live : oip ∉ (c.finished (obioCallObject packet target true).1).freed := by
      rw [freed]
      exact not_mem_nil
    by_cases pending : status = .pending
    · subst pending
      rw [owned_before ready _ target c _ [.waitForEvent, .freeOip] rfl,
        owned_settled packet _ _ ((exec_wait (called.signalled c) [.freeOip] [] [.sender]).trans
          (exec_free live [] [] [])) ⟨rfl, rfl⟩]
      exact freed_by_sender freed buffers rfl rfl
    · rw [owned_before ready _ target c _ [.readStatusInformation, .freeOip]
          (by rw [beq_eq_false_iff_ne.mpr pending]; rfl),
        owned_settled packet _ _ ((exec_read live [.freeOip] [] [.sender]).trans
          (exec_free live [] [] [])) ⟨rfl, rfl⟩]
      exact freed_by_sender freed buffers rfl rfl
  | returnsOnly status settled =>
    refine iff_of_true ?_ trivial
    rw [owned_only _ target settled [.readStatusInformation, .freeOip] rfl,
      owned_settled packet _ _ ((exec_read called.live [.freeOip] [] [.sender]).trans
        (exec_free called.live [] [] [])) ⟨rfl, rfl⟩]
    exact freed_by_sender called.freed called.buffers rfl rfl
  | completesLater c =>
    refine iff_of_false (fun owned => ?_) id
    have signalled : 0 < (c.told (obioCallObject packet target true).1).eventSets := by
      rw [← (releaseOip_place _).eventSets]
      exact called.signalled c
    have live := c.told_live called.live
    have executed : exec ownershipStep (afterCall .askDiskGeometry packet target (.completesLater c))
        (replicate 5 .completion ++ [.sender, .sender]) =
          some ⟨obioFreeOip (c.told (obioCallObject packet target true).1), [], [.releaseOip], false⟩ := by
      rw [exec_append, show 5 = c.toldStages.length from rfl, exec_completeAll c.toldStages [.releaseOip] rfl,
        completeAll_told called.live]
      exact (exec_wait signalled [.freeOip] [.releaseOip] [.sender]).trans (exec_free live [] [.releaseOip] [])
    have once := owned.2 (replicate 5 .completion ++ [.sender, .sender] ++ [.completion]) _
      (by rw [exec_append, executed]; rfl) ⟨rfl, rfl⟩
    have member : oip ∈ (obioFreeOip (c.told (obioCallObject packet target true).1)).freed := by
      obtain ⟨buffers, perm, freed⟩ := obioFreeOip_freed (c.told (obioCallObject packet target true).1)
      rw [freed]
      exact mem_append_right _ (mem_singleton_self _)
    have untouched := once.untouched
    simp only [Ownership.touch, decide_eq_true member, Bool.or_true] at untouched
    cases untouched

/-- The packet is freed once, and not looked into afterwards, for exactly the
styles of completion that its sender can bear. -/
theorem oip_ownership {sender : OipSender} (sent : SentBy sender packet) (target : Object)
    (behaviour : TargetBehaviour) : OwnedOnce sender packet target behaviour ↔ Bears sender behaviour := by
  have ready := sent.ready
  cases sender with
  | synchronusCallByStack => exact iff_of_false (synchronusCallByStack_leaks ready target behaviour) id
  | askDiskGeometry => exact askDiskGeometry_frees ready target behaviour
  | askHarddiskNumber => exact askHarddiskNumber_frees ready target behaviour
  | readSectors | fatReadDiskSectors =>
    rw [readers_leave ready target behaviour _ rfl rfl]
    cases behaviour with
    | returnsOnly status settled => exact iff_of_false (fun never => never status settled rfl) id
    | completesBefore | completesLater => exact iff_of_true (fun _ _ same => by cases same) trivial

def sampleQuery : DeviceIoControl where
  ioControlCode := 0
  inputBuffer := false
  inputBytes _ := 0
  inputBufferLength := 0
  outputBuffer := true
  outputBytes _ := 0
  outputBufferLength := 4
  internalDeviceIoControl := false
  event := true
  statusInformation := true

def sampleQueryPacket : OipState Unit Unit :=
  setInputOperation (attachSystemBuffer (deviceControlPacket () 1 one_representable sampleQuery fun _ => 0) 4)

def sampleRead : FsdRequest where
  majorFunction := oipMjRead
  buffer := true
  bufferBytes _ := 0
  length := 512
  startingOffset := some 0
  doBufferedIo := false
  doDirectIo := true
  statusInformation := true

/-- The packet that is built for a read request, or the one of the query. -/
def sampleReadPacket : OipState Unit Unit :=
  match obioBuildSynchronusFsdRequest () 1 one_representable sampleRead true (fun _ => 0) ⟨true, true, true⟩ with
  | .built s => s
  | _ => sampleQueryPacket

/-- A read with a list of pages that is completed after the call has returned. -/
theorem oip_ownership_read : OwnedOnce .readSectors sampleReadPacket ()
    (.completesLater ⟨2, (⟨.success, 512⟩, fun _ => 0), oipMjRead⟩) := by
  have built : obioBuildSynchronusFsdRequest () 1 one_representable sampleRead true (fun _ => 0) ⟨true, true, true⟩ =
    .built sampleReadPacket := rfl
  exact (oip_ownership (.readSectors sampleRead built) () _).mpr trivial

def sampleCompletion : Completion := ⟨2, (⟨.success, 4⟩, fun _ => 0), oipMjDeviceControl⟩

/-- What was freed, and whether the packet was touched after that. -/
def sampleEnd (sender : OipSender) (packet : OipState Unit Unit) (behaviour : TargetBehaviour)
    (schedule : List OipParty) : Option (List OipResource × Bool × List SenderStep) :=
  (exec ownershipStep (afterCall sender packet () behaviour) schedule).map fun o =>
    (o.packet.freed, o.touchedFreed, o.sender)

/-- A query that is completed before the call returns is freed twice, a read
that is not completed is not freed at all, nor is a call by stack, and a query
of the geometry that was left pending is freed under its completion. -/
theorem ownership_broken :
    obioBuildDeviceIoControlRequest (some ()) 1 one_representable sampleQuery (fun _ => 0) ⟨true, true, true⟩ =
      .built sampleQueryPacket ∧
    sampleEnd .askHarddiskNumber sampleQueryPacket (.completesBefore sampleCompletion .success)
      [.sender, .sender] = some ([.systemBuffer, .oip, .oip], true, []) ∧
    sampleEnd .readSectors sampleReadPacket (.returnsOnly .notSupported (by decide)) [] = some ([], false, []) ∧
    sampleEnd .synchronusCallByStack (byStackPacket 1 one_representable .zero fun _ => 0)
      (.returnsOnly .notSupported (by decide)) [.sender] = some ([], false, []) ∧
    sampleEnd .askDiskGeometry (diskGeometryPacket () 24 fun _ => 0) (.completesLater sampleCompletion)
      (List.replicate 5 .completion ++ [.sender, .sender, .completion]) = some ([.oip], true, []) :=
  ⟨rfl, by decide, by decide, by decide, by decide⟩

end Cases

end VeaOS.Ob
