import VeaOS.Foundation.Runs
import VeaOS.Ob.OipStack

/-! Runs of a request through the drivers of a device stack. The routines that
are still to be called are those of the locations from the current one on, so a
level may neither leave a routine in two locations nor complete a request whose
routine was called before. -/
namespace VeaOS.Ob
open Transition
variable {Object Routine : Type}

/-- Where the level stands that has the packet. -/
inductive OipPhase where
  | atLevel
  | skipped
  | copied
  | routineSet
  /-- The call returned at once, and the level has the packet still. -/
  | refused
  | suspended
  | finished
  | stopped (code : OipBugCheck)
  deriving DecidableEq

inductive OipAction (Object Routine : Type) where
  | skip
  | copy
  /-- `CompletionRoutine` and `Context` of the next location -/
  | setCompletionRoutine (routine : Routine)
  | call (targetObject : Object) (interruptHandler : Bool)
  /-- The level works on the result and on the system buffer. -/
  | process (update : OipInformation × (Nat → BitVec 8) → OipInformation × (Nat → BitVec 8))
  | complete (answers : Int → RoutineAnswer)

/-- `routines` are the completion routines that were set for a level that was
called, the last one first, and `called` those that were called. -/
structure OipRun (Object Routine : Type) where
  state : OipState Object Routine
  phase : OipPhase
  routines : List Routine
  called : List Routine

def CompletionOutcome.phase : CompletionOutcome → OipPhase
  | .finished => .finished
  | .suspended => .suspended
  | .bugCheck code => .stopped code

/-- The level has the packet and may work on it or complete it. -/
def OipPhase.holds : OipPhase → Bool
  | .atLevel | .skipped | .copied | .routineSet | .refused => true
  | _ => false

def OipPhase.prepared : OipPhase → Bool
  | .skipped | .copied | .routineSet => true
  | _ => false

def setCompletionRoutine (s : OipState Object Routine) (routine : Routine) : OipState Object Routine :=
  s.setStack (s.oip.currentStackLocation - 1) { s.next with completionRoutine := some routine }

def oipStep (run : OipRun Object Routine) : OipAction Object Routine → Option (OipRun Object Routine)
  | .skip =>
    if run.phase = .atLevel then
      some { run with state := obioSkipCurrentOipStackLocation run.state, phase := .skipped }
    else none
  | .copy =>
    if run.phase = .atLevel then
      some { run with state := obioCopyCurrentOipStackLocationToNext run.state, phase := .copied }
    else none
  | .setCompletionRoutine routine =>
    if run.phase = .copied then
      some { run with state := setCompletionRoutine run.state routine, phase := .routineSet }
    else none
  | .call targetObject interruptHandler =>
    if run.phase.prepared then
      let (state, status) := obioCallObject run.state targetObject interruptHandler
      some { run with
        state := state
        phase := if status.isNone then .atLevel else .refused
        routines := if run.phase = .routineSet then run.state.next.completionRoutine.toList ++ run.routines
          else run.routines }
    else none
  | .process update =>
    if run.phase.holds then
      some { run with
        state := run.state.setData (update (run.state.oip.statusInformation, run.state.systemBytes)) }
    else none
  | .complete answers =>
    if run.phase.holds ∨ run.phase = .suspended then
      let (state, called, outcome) := obioCompleteRequest run.state answers
      some { run with state := state, phase := outcome.phase, called := run.called ++ called }
    else none

section Statement

/-- The packet as it was allocated, with its first location filled in. -/
structure Sent (run : OipRun Object Routine) : Prop where
  location : run.state.oip.currentLocation = run.state.oip.stackCount + 1
  pointer : run.state.oip.currentStackLocation = run.state.oip.stackCount
  unset (index) : (run.state.oip.stack index).completionRoutine = none
  copied : run.phase = .copied
  nothing : run.routines = [] ∧ run.called = [] ∧ run.state.infoBlock = [] ∧ run.state.eventSets = 0

/-- The number of the current location and the pointer to it agree and stay in
the array, the routines are called once and in the reverse order of the calls,
and the caller is told once. A completion whose routines all go on is the last. -/
structure StackKept (run : OipRun Object Routine) : Prop where
  low : 1 ≤ run.state.oip.currentLocation
  high : run.state.oip.currentLocation ≤ run.state.oip.stackCount + 1
  same : run.state.oip.currentStackLocation = run.state.oip.currentLocation - 1
  running (code) : run.phase ≠ .stopped code
  order : run.called <+: run.routines
  pending : run.phase ≠ .finished → run.state.infoBlock = [] ∧ run.state.eventSets = 0
  finished : run.phase = .finished → run.called = run.routines ∧
    run.state.infoBlock.length = run.state.oip.userInfoBlock.toNat ∧
    run.state.eventSets = run.state.oip.userEvent.toNat
  completes (answers) : run.phase.holds = true →
    (∀ location data, (answers location data).2 ≠ .moreProcessingRequired) →
    ∃ next, oipStep run (.complete answers) = some next ∧ next.phase = .finished

/-- The last location is not left downwards; a level that copies its location
and sets no routine of its own has no routine in the copy, one that skips its
location and completes has none in it; and a request that was suspended is not
completed again. -/
def Disciplined (run : OipRun Object Routine) : OipAction Object Routine → Prop
  | .skip | .process _ => True
  | .copy | .setCompletionRoutine _ => 2 ≤ run.state.oip.currentLocation
  | .call _ _ => 2 ≤ run.state.oip.currentLocation ∧
      (run.phase = .copied → run.state.next.completionRoutine = none)
  | .complete _ => run.phase ≠ .suspended ∧ (run.phase = .skipped → run.state.next.completionRoutine = none)

instance Disciplined.decidable (run : OipRun Object Routine) :
    (action : OipAction Object Routine) → Decidable (Disciplined run action)
  | .skip | .process _ => isTrue trivial
  | .copy | .setCompletionRoutine _ => inferInstanceAs (Decidable (2 ≤ run.state.oip.currentLocation))
  | .call _ _ => inferInstanceAs (Decidable (2 ≤ run.state.oip.currentLocation ∧
      (run.phase = .copied → run.state.next.completionRoutine = none)))
  | .complete _ => inferInstanceAs (Decidable (run.phase ≠ .suspended ∧
      (run.phase = .skipped → run.state.next.completionRoutine = none)))

end Statement

section Pending

/-- The routines of `count` locations from an index on. -/
def pendingFrom (stack : Int → OipStack Object Routine) : Nat → Int → List Routine
  | 0, _ => []
  | count + 1, index => (stack index).completionRoutine.toList ++ pendingFrom stack count (index + 1)

theorem pendingFrom_congr {stack other : Int → OipStack Object Routine} (alike : ∀ i, index ≤ i → (stack i).completionRoutine = (other i).completionRoutine) :
    pendingFrom stack count index = pendingFrom other count index := by
  induction count generalizing index with
  | zero => rfl
  | succ count ih =>
    rw [pendingFrom, pendingFrom, alike index le_rfl, ih fun i above => alike i (by omega)]

/-- The routines of the locations from the one with a number on. -/
def pendingAt (oip : Oip Object Routine) (location : Int) : List Routine :=
  pendingFrom oip.stack (oip.stackCount + 1 - location).toNat (location - 1)

theorem pendingAt_cons {location : Int} (oip : Oip Object Routine) (within : location ≤ oip.stackCount) :
    pendingAt oip location =
      (oip.stack (location - 1)).completionRoutine.toList ++ pendingAt oip (location + 1) := by
  rw [pendingAt, pendingAt, show ((oip.stackCount : Int) + 1 - location).toNat =
    ((oip.stackCount : Int) + 1 - (location + 1)).toNat + 1 by omega, pendingFrom,
    show location + 1 - 1 = location - 1 + 1 by omega]

theorem pendingAt_above {location : Int} (oip : Oip Object Routine) (above : (oip.stackCount : Int) < location) :
    pendingAt oip location = [] := by
  rw [pendingAt, show ((oip.stackCount : Int) + 1 - location).toNat = 0 by omega, pendingFrom]

end Pending

section Loop
variable {s t : OipState Object Routine}

/-- The packet at another location, with another result. -/
def OipState.moved (s : OipState Object Routine) (location : Int)
    (data : OipInformation × (Nat → BitVec 8)) : OipState Object Routine :=
  { s.setOip { s.oip with
      currentLocation := location
      currentStackLocation := location - 1
      statusInformation := data.1 } with systemBytes := data.2 }

theorem ulong_of_nonneg (low : 0 ≤ value) (high : value ≤ 0x7FFFFFFF) : (ulong value : Int) = value := by
  rw [ulong, Int.toNat_of_nonneg (Int.emod_nonneg _ (by decide)), Int.emod_eq_of_lt low (by omega)]

theorem skip_moved (s : OipState Object Routine) (location : Int) (data) :
    obioSkipCurrentOipStackLocation (s.moved location data) = s.moved (location + 1) data := by
  rw [obioSkipCurrentOipStackLocation, OipState.moved, OipState.moved,
    show location + 1 - 1 = location - 1 + 1 by omega]
  rfl

theorem moved_self (same : s.oip.currentStackLocation = s.oip.currentLocation - 1) :
    s.moved s.oip.currentLocation (s.oip.statusInformation, s.systemBytes) = s := by
  rw [OipState.moved, ← same]
  rfl

theorem completionLoop_round (answers : Int → RoutineAnswer) (fuel : Nat) {location : Int} {data}
    (low : 1 ≤ location) (within : location ≤ s.oip.stackCount) :
    completionLoop answers (fuel + 1) (s.moved location data) =
      match (s.oip.stack (location - 1)).completionRoutine with
      | some routine =>
        let answer := answers location data
        if answer.2 = .moreProcessingRequired then (s.moved location answer.1, [routine], .suspended)
        else
          let (t, called, outcome) := completionLoop answers fuel (s.moved (location + 1) answer.1)
          (t, routine :: called, outcome)
      | none => completionLoop answers fuel (s.moved (location + 1) data) := by
  have range := s.oip.representable
  have number : (ulong location : Int) = location := ulong_of_nonneg (by omega) (by omega)
  have running : ¬ (s.moved location data).oip.stackCount < ulong (s.moved location data).oip.currentLocation := by
    change ¬ s.oip.stackCount < ulong location
    omega
  have inside : ¬ ((s.moved location data).oip.stackCount : Int) ≤ (s.moved location data).oip.currentStackLocation := by
    change ¬ (s.oip.stackCount : Int) ≤ location - 1
    omega
  rw [completionLoop, if_neg running, if_neg inside, skip_moved, show (s.moved location data).current =
    s.oip.stack (location - 1) from rfl]
  simp only [← skip_moved]
  rfl

theorem completionLoop_moved {fuel : Nat} {location : Int} (answers : Int → RoutineAnswer) (data)
    (low : 1 ≤ location) (high : location ≤ s.oip.stackCount + 1)
    (enough : s.oip.stackCount + 1 - location ≤ fuel) :
    ∃ last result called outcome,
      completionLoop answers fuel (s.moved location data) = (s.moved last result, called, outcome) ∧
      location ≤ last ∧ last ≤ s.oip.stackCount + 1 ∧
      (outcome = .finished ∧ called = pendingAt s.oip location ∨
        outcome = .suspended ∧ called <+: pendingAt s.oip location ∧
          ∃ place data, (answers place data).2 = .moreProcessingRequired) := by
  have range := s.oip.representable
  induction fuel generalizing location data with
  | zero =>
    exact ⟨location, data, [], .finished, rfl, le_rfl, high,
      .inl ⟨rfl, (pendingAt_above _ (by omega)).symm⟩⟩
  | succ fuel ih =>
    by_cases within : location ≤ s.oip.stackCount
    · rw [completionLoop_round answers fuel low within, pendingAt_cons s.oip within]
      cases (s.oip.stack (location - 1)).completionRoutine with
      | none =>
        obtain ⟨last, result, called, outcome, loop, lowest, ends⟩ :=
          @ih (location + 1) data (by omega) (by omega) (by omega)
        exact ⟨last, result, called, outcome, loop, by omega, ends⟩
      | some routine =>
        dsimp only
        by_cases more : (answers location data).2 = .moreProcessingRequired
        · refine ⟨location, (answers location data).1, [routine], .suspended, if_pos more, le_rfl, high,
            .inr ⟨rfl, ?_, location, data, more⟩⟩
          exact List.prefix_append ..
        · obtain ⟨last, result, called, outcome, loop, lowest, highest, ends⟩ :=
            @ih (location + 1) (answers location data).1 (by omega) (by omega) (by omega)
          refine ⟨last, result, routine :: called, outcome, ?_, by omega, highest, ?_⟩
          · rw [if_neg more, loop]
          · obtain ⟨finished, all⟩ | ⟨suspended, front, more⟩ := ends
            · exact .inl ⟨finished, by rw [all]; rfl⟩
            · exact .inr ⟨suspended, List.cons_prefix_cons.mpr ⟨rfl, front⟩, more⟩
    · have number : (ulong location : Int) = location := ulong_of_nonneg (by omega) (by omega)
      have ended : (s.moved location data).oip.stackCount < ulong (s.moved location data).oip.currentLocation := by
        change s.oip.stackCount < ulong location
        omega
      refine ⟨location, data, [], .finished, ?_, le_rfl, high, .inl ⟨rfl, ?_⟩⟩
      · rw [completionLoop, if_pos ended]
      · rw [pendingAt_above _ (by omega)]

end Loop

section Finish
variable {s t : OipState Object Routine}

/-- The location, the pointers of the caller and what the caller was told are unchanged. -/
structure SamePlace (s t : OipState Object Routine) : Prop where
  stackCount : t.oip.stackCount = s.oip.stackCount
  location : t.oip.currentLocation = s.oip.currentLocation
  pointer : t.oip.currentStackLocation = s.oip.currentStackLocation
  userInfoBlock : t.oip.userInfoBlock = s.oip.userInfoBlock
  userEvent : t.oip.userEvent = s.oip.userEvent
  infoBlock : t.infoBlock = s.infoBlock
  eventSets : t.eventSets = s.eventSets

theorem copyBack_place (s : OipState Object Routine) (major : Nat) : SamePlace s (copyBack s major) := by
  unfold copyBack
  split_ifs
  · exact ⟨rfl, rfl, rfl, rfl, rfl, rfl, rfl⟩
  · exact ⟨rfl, rfl, rfl, rfl, rfl, rfl, rfl⟩

theorem releaseBuffers_place (s : OipState Object Routine) : SamePlace s (releaseBuffers s) := by
  unfold releaseBuffers
  dsimp only
  split_ifs
  all_goals exact ⟨rfl, rfl, rfl, rfl, rfl, rfl, rfl⟩

theorem releaseOip_place (s : OipState Object Routine) : SamePlace s (releaseOip s) := by
  unfold releaseOip obioFreeOip
  dsimp only
  split_ifs
  all_goals exact ⟨rfl, rfl, rfl, rfl, rfl, rfl, rfl⟩

/-- A request that is finished stays where it is, and the caller is told once. -/
structure Told (s t : OipState Object Routine) : Prop where
  stackCount : t.oip.stackCount = s.oip.stackCount
  location : t.oip.currentLocation = s.oip.currentLocation
  pointer : t.oip.currentStackLocation = s.oip.currentStackLocation
  infoBlock : t.infoBlock.length = s.infoBlock.length + t.oip.userInfoBlock.toNat
  eventSets : t.eventSets = s.eventSets + t.oip.userEvent.toNat

@[simp] theorem writeInfoBlock_oip (s : OipState Object Routine) : (writeInfoBlock s).oip = s.oip := by
  unfold writeInfoBlock
  split_ifs <;> rfl

@[simp] theorem setUserEvent_oip (s : OipState Object Routine) : (setUserEvent s).oip = s.oip := by
  unfold setUserEvent
  split_ifs <;> rfl

theorem infoBlock_told (s : OipState Object Routine) :
    (setUserEvent (writeInfoBlock s)).infoBlock.length = s.infoBlock.length + s.oip.userInfoBlock.toNat := by
  have event (t : OipState Object Routine) : (setUserEvent t).infoBlock = t.infoBlock := by
    unfold setUserEvent
    split_ifs <;> rfl
  rw [event, writeInfoBlock]
  split_ifs with set
  · simp [set]
  · simp [Bool.eq_false_of_not_eq_true set]

theorem eventSets_told (s : OipState Object Routine) :
    (setUserEvent (writeInfoBlock s)).eventSets = s.eventSets + s.oip.userEvent.toNat := by
  have info : (writeInfoBlock s).eventSets = s.eventSets := by
    unfold writeInfoBlock
    split_ifs <;> rfl
  rw [setUserEvent, writeInfoBlock_oip]
  split_ifs with set
  · rw [info, set, Bool.toNat_true]
  · rw [info, Bool.eq_false_of_not_eq_true set, Bool.toNat_false, Nat.add_zero]

theorem tell (s : OipState Object Routine) : Told s (setUserEvent (writeInfoBlock s)) := by
  refine ⟨?_, ?_, ?_, ?_, ?_⟩
  · rw [setUserEvent_oip, writeInfoBlock_oip]
  · rw [setUserEvent_oip, writeInfoBlock_oip]
  · rw [setUserEvent_oip, writeInfoBlock_oip]
  · rw [infoBlock_told, setUserEvent_oip, writeInfoBlock_oip]
  · rw [eventSets_told, setUserEvent_oip, writeInfoBlock_oip]

theorem finishRequest_told (s : OipState Object Routine) (major : Nat) : Told s (finishRequest s major) := by
  have copy := copyBack_place s major
  have buffers := releaseBuffers_place (copyBack s major)
  have told := tell (releaseBuffers (copyBack s major))
  have last := releaseOip_place (setUserEvent (writeInfoBlock (releaseBuffers (copyBack s major))))
  refine ⟨?_, ?_, ?_, ?_, ?_⟩
  · exact last.stackCount.trans (told.stackCount.trans (buffers.stackCount.trans copy.stackCount))
  · exact last.location.trans (told.location.trans (buffers.location.trans copy.location))
  · exact last.pointer.trans (told.pointer.trans (buffers.pointer.trans copy.pointer))
  · rw [finishRequest, last.infoBlock, last.userInfoBlock, told.infoBlock, buffers.infoBlock, copy.infoBlock]
  · rw [finishRequest, last.eventSets, last.userEvent, told.eventSets, buffers.eventSets, copy.eventSets]

theorem obioCompleteRequest_spec (answers : Int → RoutineAnswer) (low : 1 ≤ s.oip.currentLocation)
    (high : s.oip.currentLocation ≤ s.oip.stackCount + 1)
    (same : s.oip.currentStackLocation = s.oip.currentLocation - 1) :
    ∃ (last : Int) (result : _), s.oip.currentLocation ≤ last ∧ last ≤ s.oip.stackCount + 1 ∧
      (obioCompleteRequest s answers = (finishRequest (s.moved last result) (requestMajor s.oip),
          pendingAt s.oip s.oip.currentLocation, .finished) ∨
        ∃ called, called <+: pendingAt s.oip s.oip.currentLocation ∧
          obioCompleteRequest s answers = (s.moved last result, called, .suspended) ∧
          ∃ place data, (answers place data).2 = .moreProcessingRequired) := by
  have range := s.oip.representable
  have number : (ulong s.oip.currentLocation : Int) = s.oip.currentLocation :=
    ulong_of_nonneg (by omega) (by omega)
  obtain ⟨last, result, called, outcome, loop, lowest, highest, ends⟩ := completionLoop_moved answers
    (s.oip.statusInformation, s.systemBytes) low high
    (show _ ≤ ((s.oip.stackCount + 1 : Nat) : Int) by push_cast; omega)
  rw [moved_self same] at loop
  refine ⟨last, result, lowest, highest, ?_⟩
  rw [obioCompleteRequest, if_neg (by omega), loop]
  obtain ⟨rfl, all⟩ | ⟨rfl, front, more⟩ := ends
  · exact .inl (by rw [all])
  · exact .inr ⟨called, front, rfl, more⟩

end Finish

/-- The routines that were set are pending until the request is completed. -/
structure RoutinesPending (run : OipRun Object Routine) : Prop extends StackKept run where
  level : run.phase = .atLevel → run.state.oip.currentLocation ≤ run.state.oip.stackCount
  waiting : run.phase.holds = true → run.called = [] ∧
    run.routines = pendingAt run.state.oip
      (if run.phase = .skipped then run.state.oip.currentLocation - 1 else run.state.oip.currentLocation)

section Steps
variable {run next : OipRun Object Routine}

/-- The steps that a level can take where it stands. -/
inductive OipMove (run : OipRun Object Routine) : OipAction Object Routine → OipRun Object Routine → Prop
  | skip (level : run.phase = .atLevel) : OipMove run .skip { run with
      state := obioSkipCurrentOipStackLocation run.state, phase := .skipped }
  | copy (level : run.phase = .atLevel) : OipMove run .copy { run with
      state := obioCopyCurrentOipStackLocationToNext run.state, phase := .copied }
  | set (copied : run.phase = .copied) : OipMove run (.setCompletionRoutine routine) { run with
      state := setCompletionRoutine run.state routine, phase := .routineSet }
  | call (prepared : run.phase.prepared = true) (stepped : oipStep run (.call object handler) = some after) :
      OipMove run (.call object handler) after
  | process (holds : run.phase.holds = true) : OipMove run (.process update) { run with
      state := run.state.setData (update (run.state.oip.statusInformation, run.state.systemBytes)) }
  | complete (able : run.phase.holds = true ∨ run.phase = .suspended)
      (stepped : oipStep run (.complete answers) = some after) : OipMove run (.complete answers) after

theorem OipMove.of_step (stepped : oipStep run action = some next) : OipMove run action next := by
  cases action with
  | call object handler =>
    by_cases prepared : run.phase.prepared = true
    · exact .call prepared stepped
    · rw [oipStep, if_neg prepared] at stepped
      cases stepped
  | complete answers =>
    by_cases able : run.phase.holds = true ∨ run.phase = .suspended
    · exact .complete able stepped
    · rw [oipStep, if_neg able] at stepped
      cases stepped
  | _ =>
    rw [oipStep] at stepped
    grind [OipMove]

theorem pendingAt_setStack {location : Int} (s : OipState Object Routine) (below : index < location - 1)
    (stack : OipStack Object Routine) : pendingAt (s.setStack index stack).oip location = pendingAt s.oip location :=
  pendingFrom_congr fun i above => by rw [s.stack_setStack_ne (by omega)]

/-- A completion ends unless a routine asks for more processing. -/
theorem complete_finished {answers : Int → RoutineAnswer} (low : 1 ≤ run.state.oip.currentLocation)
    (high : run.state.oip.currentLocation ≤ run.state.oip.stackCount + 1)
    (same : run.state.oip.currentStackLocation = run.state.oip.currentLocation - 1)
    (holds : run.phase.holds = true)
    (goes : ∀ location data, (answers location data).2 ≠ .moreProcessingRequired) :
    ∃ next, oipStep run (.complete answers) = some next ∧ next.phase = .finished := by
  rw [oipStep, if_pos (.inl holds)]
  obtain ⟨last, result, -, -, finished | ⟨called, -, -, place, data, more⟩⟩ :=
    obioCompleteRequest_spec answers low high same
  · rw [finished]
    exact ⟨_, rfl, rfl⟩
  · exact absurd more (goes place data)

theorem RoutinesPending.of_holds (holds : next.phase.holds = true) (low : 1 ≤ next.state.oip.currentLocation)
    (high : next.state.oip.currentLocation ≤ next.state.oip.stackCount + 1)
    (same : next.state.oip.currentStackLocation = next.state.oip.currentLocation - 1)
    (level : next.phase = .atLevel → next.state.oip.currentLocation ≤ next.state.oip.stackCount)
    (untold : next.state.infoBlock = [] ∧ next.state.eventSets = 0) (called : next.called = [])
    (routines : next.routines = pendingAt next.state.oip
      (if next.phase = .skipped then next.state.oip.currentLocation - 1 else next.state.oip.currentLocation)) :
    RoutinesPending next where
  low := low
  high := high
  same := same
  running code stopped := by
    rw [stopped] at holds
    cases holds
  order := by
    rw [called]
    exact List.nil_prefix
  pending _ := untold
  finished ended := by
    rw [ended] at holds
    cases holds
  completes _ := complete_finished low high same
  level := level
  waiting _ := ⟨called, routines⟩

theorem RoutinesPending.untold (kept : RoutinesPending run) (holds : run.phase.holds = true) :
    run.state.infoBlock = [] ∧ run.state.eventSets = 0 :=
  kept.pending fun ended => by
    rw [ended] at holds
    cases holds

theorem RoutinesPending.sent (sent : Sent run) : RoutinesPending run := by
  obtain ⟨location, pointer, unset, copied, routines, called, infoBlock, eventSets⟩ := sent
  refine .of_holds (by rw [copied]; rfl) (by omega) (by omega) (by omega) (fun level => ?_)
    ⟨infoBlock, eventSets⟩ called ?_
  · cases copied.symm.trans level
  rw [routines, copied, if_neg (by decide), location, pendingAt_above _ (by omega)]

theorem RoutinesPending.skip (kept : RoutinesPending run) (level : run.phase = .atLevel) :
    RoutinesPending { run with state := obioSkipCurrentOipStackLocation run.state, phase := .skipped } := by
  have within := kept.level level
  have low := kept.low
  have same := kept.same
  have holds : run.phase.holds = true := by rw [level]; rfl
  obtain ⟨called, routines⟩ := kept.waiting holds
  refine .of_holds rfl ?_ ?_ ?_ (fun level => by cases level) (kept.untold holds) called ?_
  · change 1 ≤ run.state.oip.currentLocation + 1
    omega
  · change run.state.oip.currentLocation + 1 ≤ run.state.oip.stackCount + 1
    omega
  · change run.state.oip.currentStackLocation + 1 = run.state.oip.currentLocation + 1 - 1
    omega
  · rw [if_pos rfl, routines, level, if_neg (by decide)]
    change _ = pendingAt run.state.oip (run.state.oip.currentLocation + 1 - 1)
    rw [Int.add_sub_cancel]

theorem RoutinesPending.writeNext (kept : RoutinesPending run) (holds : run.phase.holds = true)
    (unskipped : run.phase ≠ .skipped) (phase : OipPhase) (next : phase = .copied ∨ phase = .routineSet)
    (stack : OipStack Object Routine) :
    RoutinesPending { run with
      state := run.state.setStack (run.state.oip.currentStackLocation - 1) stack, phase := phase } := by
  have same := kept.same
  obtain ⟨called, routines⟩ := kept.waiting holds
  refine .of_holds ?_ kept.low kept.high kept.same (fun level => ?_) (kept.untold holds) called ?_
  · obtain rfl | rfl := next
    · rfl
    · rfl
  · obtain rfl | rfl := next
    · cases level
    · cases level
  · rw [if_neg (by obtain rfl | rfl := next <;> exact fun same => by cases same), pendingAt_setStack]
    · rw [routines, if_neg unskipped]
      rfl
    · change run.state.oip.currentStackLocation - 1 < run.state.oip.currentLocation - 1
      omega

def OipState.passed (s : OipState Object Routine) (targetObject : Object) : OipState Object Routine :=
  { s.setOip { s.oip with
      currentLocation := s.oip.currentLocation - 1
      currentStackLocation := s.oip.currentStackLocation - 1
      stack := Function.update s.oip.stack (s.oip.currentStackLocation - 1)
        { s.next with targetObject := some targetObject } } with }

theorem obioCallObject_passed (s : OipState Object Routine) (targetObject : Object) (interruptHandler : Bool)
    (low : 2 ≤ s.oip.currentLocation) : obioCallObject s targetObject interruptHandler =
      if interruptHandler then (s.passed targetObject, none)
      else ((s.passed targetObject).setStatus .notSupported, some .notSupported) := by
  have above : ¬ (s.setOip { s.oip with currentLocation := s.oip.currentLocation - 1 }).oip.currentLocation ≤ 0 := by
    change ¬ s.oip.currentLocation - 1 ≤ 0
    omega
  rw [obioCallObject, if_neg above]
  rfl

theorem pendingAt_passed {location : Int} (s : OipState Object Routine) (targetObject : Object) :
    pendingAt (s.passed targetObject).oip location = pendingAt s.oip location := by
  refine pendingFrom_congr fun i above => ?_
  by_cases same : i = s.oip.currentStackLocation - 1
  · subst same
    have self : (s.passed targetObject).oip.stack (s.oip.currentStackLocation - 1) =
      { s.next with targetObject := some targetObject } := Function.update_self ..
    rw [self]
    rfl
  · exact congrArg OipStack.completionRoutine (Function.update_of_ne same ..)

theorem OipPhase.holds_of_prepared {phase : OipPhase} (prepared : phase.prepared = true) : phase.holds = true := by
  cases phase with
  | skipped | copied | routineSet => rfl
  | _ => cases prepared

theorem RoutinesPending.call (kept : RoutinesPending run) (prepared : run.phase.prepared = true)
    (disciplined : Disciplined run (.call targetObject interruptHandler))
    (stepped : oipStep run (.call targetObject interruptHandler) = some next) : RoutinesPending next := by
  obtain ⟨low, single⟩ := disciplined
  have high := kept.high
  have same := kept.same
  have holds := OipPhase.holds_of_prepared prepared
  obtain ⟨called, routines⟩ := kept.waiting holds
  rw [oipStep, if_pos prepared, obioCallObject_passed _ _ _ low] at stepped
  have pending : (if run.phase = .routineSet then run.state.next.completionRoutine.toList ++ run.routines
      else run.routines) = pendingAt run.state.oip (run.state.oip.currentLocation - 1) := by
    have below := @pendingAt_cons _ _ (run.state.oip.currentLocation - 1) run.state.oip (by omega)
    rw [Int.sub_add_cancel, show run.state.oip.stack (run.state.oip.currentLocation - 1 - 1) = run.state.next by
      rw [OipState.next, same]] at below
    cases phase : run.phase with
    | skipped => rw [if_neg (by decide), routines, phase, if_pos rfl]
    | copied =>
      rw [if_neg (by decide), routines, phase, if_neg (by decide), below, single phase]
      rfl
    | routineSet => rw [if_pos rfl, routines, phase, if_neg (by decide), below]
    | atLevel | refused | suspended | finished | stopped =>
      rw [phase] at prepared
      cases prepared
  rw [pending] at stepped
  have reached : 1 ≤ run.state.oip.currentLocation - 1 ∧
      run.state.oip.currentLocation - 1 ≤ run.state.oip.stackCount + 1 ∧
      run.state.oip.currentStackLocation - 1 = run.state.oip.currentLocation - 1 - 1 ∧
      run.state.oip.currentLocation - 1 ≤ run.state.oip.stackCount := by omega
  obtain ⟨lowest, highest, agree, within⟩ := reached
  cases interruptHandler with
  | true =>
    cases stepped
    exact .of_holds rfl lowest highest agree (fun _ => within) (kept.untold holds) called (pendingAt_passed _ _).symm
  | false =>
    cases stepped
    exact .of_holds rfl lowest highest agree (fun level => by cases level) (kept.untold holds) called
      (pendingAt_passed _ _).symm

theorem RoutinesPending.complete (kept : RoutinesPending run) (holds : run.phase.holds = true)
    (single : run.phase = .skipped → run.state.next.completionRoutine = none)
    (completed : obioCompleteRequest run.state answers = (state, called, outcome)) :
    RoutinesPending { run with state := state, phase := outcome.phase, called := run.called ++ called } := by
  obtain ⟨untold, unset⟩ := kept.untold holds
  obtain ⟨nobody, routines⟩ := kept.waiting holds
  have high := kept.high
  have pending : run.routines = pendingAt run.state.oip run.state.oip.currentLocation := by
    rw [routines]
    by_cases skipped : run.phase = .skipped
    · have below := @pendingAt_cons _ _ (run.state.oip.currentLocation - 1) run.state.oip (by omega)
      rw [Int.sub_add_cancel, show run.state.oip.stack (run.state.oip.currentLocation - 1 - 1) = run.state.next by
        rw [OipState.next, kept.same], single skipped] at below
      rw [if_pos skipped, below]
      rfl
    · rw [if_neg skipped]
  obtain ⟨last, result, lowest, highest, finished | ⟨front, starts, suspended, -⟩⟩ :=
    obioCompleteRequest_spec answers kept.low kept.high kept.same
  · cases completed.symm.trans finished
    have told := finishRequest_told (run.state.moved last result) (requestMajor run.state.oip)
    refine ⟨⟨?_, ?_, ?_, (fun code stopped => by cases stopped), ?_, fun unfinished => (unfinished rfl).elim,
      fun _ => ?_, fun _ held => by cases held⟩, (fun level => by cases level), (fun held => by cases held)⟩
    · exact (kept.low.trans lowest).trans_eq told.location.symm
    · rw [told.location, told.stackCount]
      exact highest
    · rw [told.pointer, told.location]
      rfl
    · rw [nobody, pending]
      exact List.prefix_rfl
    · refine ⟨?_, ?_, ?_⟩
      · rw [nobody, pending]
        rfl
      · rw [told.infoBlock, show (run.state.moved last result).infoBlock = [] from untold]
        exact Nat.zero_add _
      · rw [told.eventSets, show (run.state.moved last result).eventSets = 0 from unset]
        exact Nat.zero_add _
  · cases completed.symm.trans suspended
    refine ⟨⟨kept.low.trans lowest, highest, rfl, (fun code stopped => by cases stopped), ?_, fun _ => ⟨untold, unset⟩,
      (fun ended => by cases ended), (fun _ held => by cases held)⟩, (fun level => by cases level),
      (fun held => by cases held)⟩
    rw [nobody, pending]
    exact starts

theorem RoutinesPending.process (kept : RoutinesPending run) (data) :
    RoutinesPending { run with state := run.state.setData data } :=
  ⟨⟨kept.low, kept.high, kept.same, kept.running, kept.order, kept.pending, kept.finished,
    fun _ => complete_finished kept.low kept.high kept.same⟩, kept.level, kept.waiting⟩

theorem RoutinesPending.step (kept : RoutinesPending run) (disciplined : Disciplined run action)
    (stepped : oipStep run action = some next) : RoutinesPending next := by
  cases OipMove.of_step stepped with
  | skip level => exact kept.skip level
  | copy level => exact kept.writeNext (by rw [level]; rfl) (by rw [level]; decide) _ (.inl rfl) _
  | set copied => exact kept.writeNext (by rw [copied]; rfl) (by rw [copied]; decide) _ (.inr rfl) _
  | call prepared stepped => exact kept.call prepared disciplined stepped
  | process => exact kept.process _
  | complete able stepped =>
    obtain ⟨fresh, single⟩ := disciplined
    rw [oipStep, if_pos able] at stepped
    cases stepped
    exact kept.complete (able.resolve_right fresh) single rfl

/-- In every run whose steps are disciplined, the location and the pointer stay
together in the array, every routine is called once, the last one set first, and
the request can be completed. -/
theorem oip_stack_runs (sent : Sent run) (disciplined : Along Disciplined oipStep run actions)
    (executed : exec oipStep run actions = some next) : StackKept next :=
  (exec_preserves (P := RoutinesPending) (fun kept admitted stepped => kept.step admitted stepped)
    (RoutinesPending.sent sent) disciplined executed).toStackKept

end Steps

/-- A packet of two locations, sent to the upper driver. -/
def sampleOipRun : OipRun Unit Bool :=
  ⟨⟨{ obioAllocateOip 2 two_representable with userEvent := true, userInfoBlock := true }, fun _ => 0, fun _ => 0, 0, [], 0, []⟩,
    .copied, [], []⟩

def goesOn : Int → RoutineAnswer := fun _ data => (data, .success)

def suspends : Int → RoutineAnswer := fun _ data => (data, .moreProcessingRequired)

theorem oip_stack_runs_passed : ∃ next, exec oipStep sampleOipRun
      [.call () true, .copy, .setCompletionRoutine true, .call () true, .complete goesOn] = some next ∧
    StackKept next :=
  have executed : exec oipStep sampleOipRun
      [.call () true, .copy, .setCompletionRoutine true, .call () true, .complete goesOn] = some _ := rfl
  ⟨_, executed, oip_stack_runs ⟨rfl, rfl, fun _ => rfl, rfl, rfl, rfl, rfl, rfl⟩ (by decide) executed⟩

/-- A routine is called again when the request that it suspended is completed,
and it is called for two levels when the upper level copied its location; and the
routine of a location that was skipped before the completion is not called. -/
theorem completion_repeated :
    (exec oipStep sampleOipRun [.call () true, .copy, .setCompletionRoutine true, .call () true,
        .complete suspends, .complete goesOn]).map (fun run => (run.phase, run.routines, run.called)) =
      some (.finished, [true], [true, true]) ∧
    (exec oipStep sampleOipRun [.setCompletionRoutine true, .call () true, .copy, .call () true,
        .complete goesOn]).map (fun run => (run.phase, run.routines, run.called)) =
      some (.finished, [true], [true, true]) ∧
    (exec oipStep sampleOipRun [.setCompletionRoutine true, .call () true, .skip, .complete goesOn]).map
        (fun run => (run.phase, run.routines, run.called)) = some (.finished, [true], []) := by
  decide

end VeaOS.Ob
