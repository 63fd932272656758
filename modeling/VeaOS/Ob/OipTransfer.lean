import VeaOS.Ob.OipRequests
import VeaOS.Ob.OipStackRuns

/-! Buffered control requests. What the caller asked for goes down in the system
buffer; what is copied back depends on the location where the completion starts
and on the length that the drivers report. -/
namespace VeaOS.Ob
open Transition
variable {Object Routine : Type}

section Statement

/-- The packet of a builder, with its first location filled in. -/
def sentRequest (s : OipState Object Routine) : OipRun Object Routine := ⟨s, .copied, [], []⟩

/-- The last location is not left downwards. -/
def AboveLast (run : OipRun Object Routine) : OipAction Object Routine → Prop
  | .copy | .setCompletionRoutine _ | .call _ _ => 2 ≤ run.state.oip.currentLocation
  | _ => True

def OipAction.descends : OipAction Object Routine → Bool
  | .skip | .copy | .setCompletionRoutine _ | .call _ _ => true
  | _ => false

/-- What the caller finds once the request is finished: the bytes that were
asked for and reported, and no access outside of the two buffers. -/
structure CopiedBack (request : DeviceIoControl) (t : OipState Object Routine) : Prop where
  bytes {i} : i < min t.oip.statusInformation.information request.outputBufferLength →
    t.userBytes i = t.systemBytes i
  written : t.copied ≤ request.outputBufferLength
  read : t.copied ≤ request.bufferLength

/-- An external request that is completed at a location of the stack reports no
more than the caller's length; of every other one the caller has the bytes already. -/
def CopyFits (request : DeviceIoControl) (s t : OipState Object Routine) : Prop :=
  if request.internalDeviceIoControl = false ∧ s.oip.currentLocation ≤ s.oip.stackCount then
    request.outputBuffer = true → request.bufferLength ≠ 0 →
      t.oip.statusInformation.information ≤ request.outputBufferLength
  else ∀ i < min t.oip.statusInformation.information request.outputBufferLength,
    request.outputBytes i = t.systemBytes i

end Statement

/-- What the builder set up for the transfer back. -/
structure Attached (request : DeviceIoControl) (s : OipState Object Routine) : Prop where
  inputOperation : s.oip.flags.inputOperation = (request.bufferLength != 0 && request.outputBuffer)
  bufferedIo : s.oip.flags.bufferedIo = (request.bufferLength != 0)
  systemBuffer : s.oip.systemBuffer = (request.bufferLength != 0)
  userBuffer : s.oip.userBuffer = request.outputBuffer
  userBytes : s.userBytes = request.outputBytes
  copied : s.copied = 0
  offered : request.outputBufferLength ≠ 0 → request.outputBuffer = true

theorem Attached.carried {request : DeviceIoControl} {s t : OipState Object Routine} (attached : Attached request s)
    (flags : t.oip.flags = s.oip.flags) (systemBuffer : t.oip.systemBuffer = s.oip.systemBuffer)
    (userBuffer : t.oip.userBuffer = s.oip.userBuffer) (userBytes : t.userBytes = s.userBytes)
    (copied : t.copied = s.copied) : Attached request t where
  inputOperation := by rw [flags, attached.inputOperation]
  bufferedIo := by rw [flags, attached.bufferedIo]
  systemBuffer := by rw [systemBuffer, attached.systemBuffer]
  userBuffer := by rw [userBuffer, attached.userBuffer]
  userBytes := by rw [userBytes, attached.userBytes]
  copied := by rw [copied, attached.copied]
  offered := attached.offered

/-- The locations that were passed have the major function of the request. -/
structure TransferKept (request : DeviceIoControl) (run : OipRun Object Routine) : Prop where
  low : 1 ≤ run.state.oip.currentLocation
  high : run.state.oip.currentLocation ≤ run.state.oip.stackCount + 1
  same : run.state.oip.currentStackLocation = run.state.oip.currentLocation - 1
  level : run.phase = .atLevel → run.state.oip.currentLocation ≤ run.state.oip.stackCount
  majors {i} : run.state.oip.currentStackLocation ≤ i → i < run.state.oip.stackCount →
    (run.state.oip.stack i).majorFunction = request.majorFunction
  next : run.phase.prepared = true → run.state.next.majorFunction = request.majorFunction
  attached : run.phase ≠ .finished → Attached request run.state

section Steps
variable {request : DeviceIoControl} {run next : OipRun Object Routine}

section
variable (kept : TransferKept request run)
include kept

theorem TransferKept.holding (holds : run.phase.holds = true) : Attached request run.state :=
  kept.attached fun ended => by
    rw [ended] at holds
    cases holds

theorem TransferKept.skip (level : run.phase = .atLevel) :
    TransferKept request { run with state := obioSkipCurrentOipStackLocation run.state, phase := .skipped } := by
  have within := kept.level level
  have low := kept.low
  have same := kept.same
  have attached := kept.holding (by rw [level]; rfl)
  refine ⟨?_, ?_, ?_, (fun level => by cases level), fun {i} above below => ?_, fun _ => ?_, fun _ => ?_⟩
  · change 1 ≤ run.state.oip.currentLocation + 1
    omega
  · change run.state.oip.currentLocation + 1 ≤ run.state.oip.stackCount + 1
    omega
  · change run.state.oip.currentStackLocation + 1 = run.state.oip.currentLocation + 1 - 1
    omega
  · refine kept.majors ?_ below
    change run.state.oip.currentStackLocation + 1 ≤ i at above
    omega
  · change (run.state.oip.stack (run.state.oip.currentStackLocation + 1 - 1)).majorFunction = _
    rw [Int.add_sub_cancel]
    exact kept.majors le_rfl (by omega)
  · exact attached.carried rfl rfl rfl rfl rfl

theorem TransferKept.writeNext (holds : run.phase.holds = true)
    (level : phase ≠ .atLevel) (stack : OipStack Object Routine)
    (major : stack.majorFunction = request.majorFunction) :
    TransferKept request { run with
      state := run.state.setStack (run.state.oip.currentStackLocation - 1) stack, phase := phase } := by
  have attached := kept.holding holds
  refine ⟨kept.low, kept.high, kept.same, fun arrived => absurd arrived level, fun {i} above below => ?_,
    fun _ => ?_, fun _ => ?_⟩
  · change run.state.oip.currentStackLocation ≤ i at above
    rw [run.state.stack_setStack_ne (by omega)]
    exact kept.majors above below
  · change ((run.state.setStack _ stack).oip.stack (run.state.oip.currentStackLocation - 1)).majorFunction = _
    rw [OipState.stack_setStack]
    exact major
  · exact attached.carried rfl rfl rfl rfl rfl

theorem TransferKept.passed (prepared : run.phase.prepared = true) (targetObject : Object) (i : Int)
    (above : run.state.oip.currentStackLocation - 1 ≤ i) (below : i < run.state.oip.stackCount) :
    ((run.state.passed targetObject).oip.stack i).majorFunction = request.majorFunction := by
  by_cases same : i = run.state.oip.currentStackLocation - 1
  · have self : (run.state.passed targetObject).oip.stack i = { run.state.next with targetObject := some targetObject } := by
      rw [same]
      exact Function.update_self ..
    rw [self]
    exact kept.next prepared
  · have other : (run.state.passed targetObject).oip.stack i = run.state.oip.stack i := Function.update_of_ne same ..
    rw [other]
    exact kept.majors (by omega) below

theorem TransferKept.call (prepared : run.phase.prepared = true) (low : 2 ≤ run.state.oip.currentLocation)
    (stepped : oipStep run (.call targetObject interruptHandler) = some next) : TransferKept request next := by
  have high := kept.high
  have same := kept.same
  have attached := kept.holding (OipPhase.holds_of_prepared prepared)
  have passed := kept.passed prepared targetObject
  rw [oipStep, if_pos prepared, obioCallObject_passed _ _ _ low] at stepped
  have reached : 1 ≤ run.state.oip.currentLocation - 1 ∧
      run.state.oip.currentLocation - 1 ≤ run.state.oip.stackCount + 1 ∧
      run.state.oip.currentStackLocation - 1 = run.state.oip.currentLocation - 1 - 1 ∧
      run.state.oip.currentLocation - 1 ≤ run.state.oip.stackCount := by omega
  obtain ⟨lowest, highest, agree, within⟩ := reached
  cases interruptHandler with
  | true =>
    cases stepped
    exact ⟨lowest, highest, agree, fun _ => within, fun {i} above below => passed i above below,
      (fun prepared => by cases prepared), fun _ => attached.carried rfl rfl rfl rfl rfl⟩
  | false =>
    cases stepped
    exact ⟨lowest, highest, agree, (fun level => by cases level), fun {i} above below => passed i above below,
      (fun prepared => by cases prepared), fun _ => attached.carried rfl rfl rfl rfl rfl⟩

theorem TransferKept.complete (able : run.phase.holds = true ∨ run.phase = .suspended)
    (stepped : oipStep run (.complete answers) = some next) :
    next.phase = .suspended ∧ TransferKept request next ∨
      next.phase = .finished ∧ ∃ last result,
        next.state = finishRequest (run.state.moved last result) (requestMajor run.state.oip) := by
  have unfinished : run.phase ≠ .finished := by
    obtain holds | suspended := able
    · intro ended
      rw [ended] at holds
      cases holds
    · rw [suspended]
      decide
  have attached := kept.attached unfinished
  rw [oipStep, if_pos able] at stepped
  obtain ⟨last, result, lowest, highest, finished | ⟨front, starts, suspended, -⟩⟩ :=
    obioCompleteRequest_spec answers kept.low kept.high kept.same
  · rw [finished] at stepped
    cases stepped
    exact .inr ⟨rfl, last, result, rfl⟩
  · rw [suspended] at stepped
    cases stepped
    refine .inl ⟨rfl, kept.low.trans lowest, highest, rfl, (fun level => by cases level), fun {i} above below => ?_,
      (fun prepared => by cases prepared), fun _ => attached.carried rfl rfl rfl rfl rfl⟩
    refine kept.majors ?_ below
    have same := kept.same
    change last - 1 ≤ i at above
    omega

theorem TransferKept.step (above : AboveLast run action)
    (stepped : oipStep run action = some next) (unfinished : next.phase ≠ .finished) : TransferKept request next := by
  cases OipMove.of_step stepped with
  | skip level => exact kept.skip level
  | copy level =>
    exact kept.writeNext (by rw [level]; rfl) (by decide) _ (kept.majors le_rfl (by
      have within := kept.level level
      have same := kept.same
      omega))
  | set copied => exact kept.writeNext (by rw [copied]; rfl) (by decide) _ (kept.next (by rw [copied]; rfl))
  | call prepared stepped => exact kept.call prepared above stepped
  | process holds =>
    exact ⟨kept.low, kept.high, kept.same, kept.level, kept.majors, kept.next,
      fun _ => (kept.holding holds).carried rfl rfl rfl rfl rfl⟩
  | complete able stepped =>
    obtain ⟨_, suspended⟩ | ⟨finished, _⟩ := kept.complete able stepped
    · exact suspended
    · exact absurd finished unfinished

end

theorem oipStep_finished (finished : run.phase = .finished) (action : OipAction Object Routine) :
    oipStep run action = none := by
  cases action with
  | _ => simp [oipStep, finished, OipPhase.prepared, OipPhase.holds]

theorem TransferKept.runs (kept : TransferKept request run) (above : Along AboveLast oipStep run actions)
    (executed : exec oipStep run actions = some next) (unfinished : next.phase ≠ .finished) :
    TransferKept request next := by
  have carried := exec_preserves (P := fun run : OipRun Object Routine => run.phase = .finished ∨ TransferKept request run)
    (fun {s a t} inv admitted stepped => by
      obtain finished | kept := inv
      · rw [oipStep_finished finished] at stepped
        cases stepped
      · by_cases finished : t.phase = .finished
        · exact .inl finished
        · exact .inr (kept.step admitted stepped finished)) (.inr kept) above executed
  exact carried.resolve_left unfinished

end Steps

section Bytes
variable {s t : OipState Object Routine}

/-- The bytes of the buffers, the length of the copy and the result are unchanged. -/
structure SameBytes (s t : OipState Object Routine) : Prop where
  system : t.systemBytes = s.systemBytes
  user : t.userBytes = s.userBytes
  copied : t.copied = s.copied
  result : t.oip.statusInformation = s.oip.statusInformation

theorem SameBytes.trans (first : SameBytes s t) (second : SameBytes t u) : SameBytes s u :=
  ⟨second.system.trans first.system, second.user.trans first.user, second.copied.trans first.copied,
    second.result.trans first.result⟩

theorem finishRequest_bytes (s : OipState Object Routine) (major : Nat) :
    SameBytes (copyBack s major) (finishRequest s major) := by
  have buffers (s : OipState Object Routine) : SameBytes s (releaseBuffers s) := by
    unfold releaseBuffers
    dsimp only
    split_ifs
    all_goals exact ⟨rfl, rfl, rfl, rfl⟩
  have info (s : OipState Object Routine) : SameBytes s (writeInfoBlock s) := by
    unfold writeInfoBlock
    split_ifs
    all_goals exact ⟨rfl, rfl, rfl, rfl⟩
  have event (s : OipState Object Routine) : SameBytes s (setUserEvent s) := by
    unfold setUserEvent
    split_ifs
    all_goals exact ⟨rfl, rfl, rfl, rfl⟩
  have oip (s : OipState Object Routine) : SameBytes s (releaseOip s) := by
    unfold releaseOip obioFreeOip
    dsimp only
    split_ifs
    all_goals exact ⟨rfl, rfl, rfl, rfl⟩
  exact (buffers _).trans ((info _).trans ((event _).trans (oip _)))

theorem requestMajor_external {request : DeviceIoControl} {run : OipRun Object Routine}
    (kept : TransferKept request run) :
    (requestMajor run.state.oip == oipMjDeviceControl || requestMajor run.state.oip == oipMjFileSystemControl) =
      decide (request.internalDeviceIoControl = false ∧ run.state.oip.currentLocation ≤ run.state.oip.stackCount) := by
  have low := kept.low
  have high := kept.high
  have same := kept.same
  have range := run.state.oip.representable
  have number : (ulong run.state.oip.currentLocation : Int) = run.state.oip.currentLocation :=
    ulong_of_nonneg (by omega) (by omega)
  unfold requestMajor
  by_cases within : run.state.oip.currentLocation ≤ run.state.oip.stackCount
  · rw [if_pos (by omega), kept.majors le_rfl (by omega), DeviceIoControl.majorFunction]
    cases request.internalDeviceIoControl with
    | true => simp [oipMjInternalDeviceCtl, oipMjDeviceControl, oipMjFileSystemControl]
    | false => simp [oipMjDeviceControl, within]
  · rw [if_neg (by omega)]
    simp [oipMjDeviceControl, oipMjFileSystemControl, within]

theorem DeviceIoControl.output_le (request : DeviceIoControl) :
    request.outputBufferLength ≤ request.bufferLength := by
  unfold DeviceIoControl.bufferLength
  split_ifs
  · omega
  · exact le_rfl

/-- When a request finishes, the caller has what the claim says exactly when the copy fits. -/
theorem TransferKept.finish {request : DeviceIoControl} {run : OipRun Object Routine}
    (kept : TransferKept request run) (attached : Attached request run.state) (last : Int) (result) :
    CopiedBack request (finishRequest (run.state.moved last result) (requestMajor run.state.oip)) ↔
      CopyFits request run.state (finishRequest (run.state.moved last result) (requestMajor run.state.oip)) := by
  have copy := finishRequest_bytes (run.state.moved last result) (requestMajor run.state.oip)
  generalize finishRequest (run.state.moved last result) (requestMajor run.state.oip) = t at copy ⊢
  have copies : copiesBack (run.state.moved last result).oip (requestMajor run.state.oip) =
      (request.bufferLength != 0 && request.outputBuffer && decide (0 < result.1.information) &&
        decide (request.internalDeviceIoControl = false ∧
          run.state.oip.currentLocation ≤ run.state.oip.stackCount)) := by
    rw [← requestMajor_external kept, copiesBack]
    change (run.state.oip.flags.inputOperation && run.state.oip.flags.bufferedIo && run.state.oip.userBuffer &&
      run.state.oip.systemBuffer && _ && _) = _
    rw [attached.inputOperation, attached.bufferedIo, attached.systemBuffer, attached.userBuffer]
    cases request.bufferLength != 0 <;> cases request.outputBuffer <;> rfl
  have information : t.oip.statusInformation.information = result.1.information := by
    rw [copy.result]
    unfold copyBack
    split_ifs <;> rfl
  have systemBytes : t.systemBytes = result.2 := by
    rw [copy.system]
    unfold copyBack
    split_ifs <;> rfl
  have offered := attached.offered
  have longest := request.output_le
  have untouched (stays : copiesBack (run.state.moved last result).oip (requestMajor run.state.oip) = false) :
      t.userBytes = request.outputBytes ∧ t.copied = 0 := by
    rw [copy.user, copy.copied, copyBack, if_neg (by rw [stays]; decide)]
    exact ⟨attached.userBytes, attached.copied⟩
  unfold CopyFits
  by_cases external : request.internalDeviceIoControl = false ∧
      run.state.oip.currentLocation ≤ run.state.oip.stackCount
  · rw [if_pos external, information]
    by_cases takes : request.bufferLength ≠ 0 ∧ request.outputBuffer = true ∧ 0 < result.1.information
    · obtain ⟨sized, wanted, reported⟩ := takes
      have moves : copiesBack (run.state.moved last result).oip (requestMajor run.state.oip) = true := by
        rw [copies]
        simp [sized, wanted, reported, external]
      have length : t.copied = result.1.information := by
        rw [copy.copied, copyBack, if_pos moves]
        rfl
      constructor
      · intro right _ _
        exact length ▸ right.written
      · intro fits
        have bound := fits wanted sized
        refine ⟨fun {i} below => ?_, by omega, by omega⟩
        rw [information] at below
        rw [copy.user, copy.system, copyBack, if_pos moves]
        exact if_pos (by change i < result.1.information; omega)
    · have stays : copiesBack (run.state.moved last result).oip (requestMajor run.state.oip) = false := by
        rw [copies]
        by_contra moves
        simp only [Bool.not_eq_false, Bool.and_eq_true, bne_iff_ne, decide_eq_true_iff] at moves
        exact takes ⟨moves.1.1.1, moves.1.1.2, moves.1.2⟩
      obtain ⟨user, length⟩ := untouched stays
      constructor
      · intro _ wanted sized
        have unreported : ¬ 0 < result.1.information := fun reported => takes ⟨sized, wanted, reported⟩
        omega
      · intro _
        refine ⟨fun {i} below => ?_, by omega, by omega⟩
        rw [information] at below
        refine absurd ⟨?_, offered ?_, ?_⟩ takes
        · omega
        · omega
        · omega
  · rw [if_neg external, information]
    have stays : copiesBack (run.state.moved last result).oip (requestMajor run.state.oip) = false := by
      rw [copies, decide_eq_false external, Bool.and_false]
    obtain ⟨user, length⟩ := untouched stays
    constructor
    · intro right i below
      rw [← user]
      exact right.bytes (by rwa [information])
    · intro already
      refine ⟨fun {i} below => ?_, by omega, by omega⟩
      rw [user]
      exact already i (by rwa [information] at below)

end Bytes

section Building
variable {request : DeviceIoControl} {s : OipState Object Routine}

theorem sent_kept (location : s.oip.currentLocation = s.oip.stackCount + 1)
    (pointer : s.oip.currentStackLocation = s.oip.stackCount) (major : s.next.majorFunction = request.majorFunction)
    (attached : Attached request s) : TransferKept request (sentRequest s) where
  low := by
    change 1 ≤ s.oip.currentLocation
    omega
  high := location.le
  same := by
    change s.oip.currentStackLocation = s.oip.currentLocation - 1
    omega
  level level := by cases level
  majors {i} above below := by
    change s.oip.currentStackLocation ≤ i at above
    change i < s.oip.stackCount at below
    omega
  next _ := major
  attached _ := attached

theorem attached_buffered (sized : (request.bufferLength != 0) = true)
    (flags : s.oip.flags = ⟨true, true, true, request.outputBuffer⟩) (systemBuffer : s.oip.systemBuffer = true)
    (userBuffer : s.oip.userBuffer = request.outputBuffer) (userBytes : s.userBytes = request.outputBytes)
    (copied : s.copied = 0) (offered : request.outputBufferLength ≠ 0 → request.outputBuffer = true) :
    Attached request s where
  inputOperation := by rw [flags, sized, Bool.true_and]
  bufferedIo := by rw [flags, sized]
  systemBuffer := systemBuffer.trans sized.symm
  userBuffer := userBuffer
  userBytes := userBytes
  copied := copied
  offered := offered

theorem packet_major (pool : Nat → BitVec 8) :
    (deviceControlPacket deviceObject stackCount representable request pool :
      OipState Object Routine).next.majorFunction = request.majorFunction :=
  congrArg OipStack.majorFunction (OipState.stack_setStack ..)

theorem DeviceIoControl.input_le (request : DeviceIoControl) :
    request.inputBufferLength ≤ request.bufferLength := by
  unfold DeviceIoControl.bufferLength
  split_ifs <;> omega

theorem built_kept
    (built : obioBuildDeviceIoControlRequest deviceObject stackCount representable request pool allocations = .built s)
    (buffered : request.ioControlCode &&& 0x3 = oipMethodBuffered) :
    TransferKept request (sentRequest s) ∧ ∀ i < request.inputBufferLength, s.systemBytes i = request.inputBytes i := by
  unfold obioBuildDeviceIoControlRequest at built
  cases deviceObject with
  | none => cases built
  | some deviceObject =>
    dsimp only at built
    split_ifs at built with invalid empty unallocated
    · have offered : request.outputBufferLength ≠ 0 → request.outputBuffer = true := by
        intro sized
        by_contra missing
        exact invalid (.inr ⟨sized, by simpa using missing⟩)
      have shorter := request.input_le
      unfold attachBuffered at built
      by_cases none : request.bufferLength = 0
      · rw [if_pos none] at built
        cases built
        refine ⟨sent_kept rfl rfl (packet_major pool) ⟨?_, ?_, ?_, rfl, rfl, rfl, offered⟩, fun i below => ?_⟩
        · rw [none]
          rfl
        · rw [none]
          rfl
        · rw [none]
          rfl
        · omega
      · rw [if_neg none] at built
        have sized : (request.bufferLength != 0) = true := by simpa using none
        split_ifs at built with unallocated input wanted wanted
        · cases built
          exact ⟨sent_kept rfl rfl (packet_major pool)
            (attached_buffered sized (by rw [wanted]; rfl) rfl rfl rfl rfl offered), fun i below => if_pos below⟩
        · cases built
          exact ⟨sent_kept rfl rfl (packet_major pool) (attached_buffered sized
            (by rw [Bool.eq_false_of_not_eq_true wanted]; rfl) rfl rfl rfl rfl offered), fun i below => if_pos below⟩
        · cases built
          exact ⟨sent_kept rfl rfl (packet_major pool)
            (attached_buffered sized (by rw [wanted]; rfl) rfl rfl rfl rfl offered), fun i below => by omega⟩
        · cases built
          exact ⟨sent_kept rfl rfl (packet_major pool) (attached_buffered sized
            (by rw [Bool.eq_false_of_not_eq_true wanted]; rfl) rfl rfl rfl rfl offered), fun i below => by omega⟩

theorem obioCallObject_bytes (s : OipState Object Routine) (targetObject : Object) (interruptHandler : Bool) :
    (obioCallObject s targetObject interruptHandler).1.systemBytes = s.systemBytes := by
  unfold obioCallObject
  dsimp only
  split_ifs <;> rfl

theorem descent_bytes {run next : OipRun Object Routine} (descends : action.descends = true)
    (stepped : oipStep run action = some next) : next.state.systemBytes = run.state.systemBytes := by
  cases OipMove.of_step stepped with
  | process | complete => cases descends
  | skip | copy | set => rfl
  | call prepared stepped =>
    rw [oipStep, if_pos prepared] at stepped
    cases stepped
    exact obioCallObject_bytes ..

/-- The input reaches every driver that a buffered request is passed to, and
once the request is finished the caller has what it asked for exactly when the
copy fits. -/
theorem buffered_transfer
    (built : obioBuildDeviceIoControlRequest deviceObject stackCount representable request pool allocations = .built s)
    (buffered : request.ioControlCode &&& 0x3 = oipMethodBuffered)
    (above : Along AboveLast oipStep (sentRequest s) actions)
    (executed : exec oipStep (sentRequest s) actions = some run) :
    ((∀ action ∈ actions, action.descends = true) →
      ∀ i < request.inputBufferLength, run.state.systemBytes i = request.inputBytes i) ∧
    ∀ answers next, oipStep run (.complete answers) = some next → next.phase = .finished →
      (CopiedBack request next.state ↔ CopyFits request run.state next.state) := by
  obtain ⟨kept, filled⟩ := built_kept built buffered
  refine ⟨fun descends i below => ?_, fun answers next stepped finished => ?_⟩
  · rw [← filled i below]
    have admitted : Along (fun _ action => action.descends = true) oipStep (sentRequest s) actions :=
      .of_forall fun action member _ => descends action member
    have same := exec_preserves (P := fun run : OipRun Object Routine => run.state.systemBytes = s.systemBytes)
      (fun same descends stepped => (descent_bytes descends stepped).trans same) rfl admitted executed
    rw [same]
  · have unfinished : run.phase ≠ .finished := by
      intro ended
      rw [oipStep_finished ended] at stepped
      cases stepped
    have reached := kept.runs above executed unfinished
    by_cases able : run.phase.holds = true ∨ run.phase = .suspended
    · obtain ⟨suspended, _⟩ | ⟨_, last, result, ended⟩ := reached.complete able stepped
      · cases suspended.symm.trans finished
      · rw [ended]
        exact reached.finish (reached.attached unfinished) last result
    · rw [oipStep, if_neg able] at stepped
      cases stepped

def sampleControl (internal : Bool) : DeviceIoControl where
  ioControlCode := 0
  inputBuffer := true
  inputBytes i := BitVec.ofNat 8 (i + 1)
  inputBufferLength := 4
  outputBuffer := true
  outputBytes _ := 0
  outputBufferLength := 4
  internalDeviceIoControl := internal
  event := true
  statusInformation := true

/-- The request to a stack of one driver, and what the driver does. -/
def sampleTransfer (internal : Bool) (actions : List (OipAction Unit Unit)) : Option (OipRun Unit Unit) :=
  match obioBuildDeviceIoControlRequest (some ()) 1 one_representable (sampleControl internal) (fun _ => 0)
      ⟨true, true, true⟩ with
  | .built s => exec oipStep (sentRequest s) actions
  | _ => none

def reports (length : Nat) : OipAction Unit Unit := .process fun _ => (⟨.success, length⟩, fun _ => 1)

def samplePacket : OipState Unit Unit :=
  setInputOperation (fillSystemBuffer (attachSystemBuffer
    (deviceControlPacket () 1 one_representable (sampleControl false) fun _ => 0) 4) (sampleControl false).inputBytes 4)

/-- Four bytes reach the driver, and its answer of four bytes comes back. -/
theorem buffered_transfer_sample :
    let called := (exec oipStep (sentRequest samplePacket) [.call () true]).get rfl
    let run := (exec oipStep (sentRequest samplePacket) [.call () true, reports 4]).get rfl
    let next := (oipStep run (.complete goesOn)).get rfl
    (∀ i < 4, called.state.systemBytes i = BitVec.ofNat 8 (i + 1)) ∧ CopiedBack (sampleControl false) next.state ∧
      next.state.userBytes 3 = 1 := by
  have built : obioBuildDeviceIoControlRequest (some ()) 1 one_representable (sampleControl false) (fun _ => 0)
      ⟨true, true, true⟩ = .built samplePacket := rfl
  have first : (2 : Int) ≤ samplePacket.oip.currentLocation := by decide
  have calls : Along AboveLast oipStep (sentRequest samplePacket) [.call () true] := ⟨first, fun _ _ => trivial⟩
  have above : Along AboveLast oipStep (sentRequest samplePacket) [.call () true, reports 4] :=
    ⟨first, fun _ _ => ⟨trivial, fun _ _ => trivial⟩⟩
  refine ⟨(buffered_transfer built rfl calls (Option.some_get _).symm).1 (by simp [OipAction.descends]), ?_, rfl⟩
  refine ((buffered_transfer built rfl above (Option.some_get _).symm).2 goesOn _ (Option.some_get _).symm rfl).mpr ?_
  exact fun _ _ => Nat.le_refl 4

/-- Of a request for four bytes eight are copied when the driver reports eight,
none when the request is internal, and none when the driver skips its location
and completes the request from above the stack. -/
theorem transfer_not_bounded :
    (sampleTransfer false [.call () true, reports 8, .complete goesOn]).map
        (fun run => (run.phase, run.state.copied)) = some (.finished, 8) ∧
    (sampleTransfer true [.call () true, reports 4, .complete goesOn]).map
        (fun run => (run.phase, run.state.systemBytes 0, run.state.userBytes 0)) = some (.finished, 1, 0) ∧
    (sampleTransfer false [.call () true, reports 4, .skip, .complete goesOn]).map
        (fun run => (run.phase, run.state.systemBytes 0, run.state.userBytes 0)) = some (.finished, 1, 0) := by
  decide

end Building
end VeaOS.Ob
