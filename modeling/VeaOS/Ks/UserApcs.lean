import VeaOS.Ks.ApcRuns
import VeaOS.Ks.Dispatcher

/-! The user calls of one thread with the state of its wait. Every normal user call goes to the head
of its list and is made deliverable at once. -/
namespace VeaOS.Ks
open Foundation Transition Option
variable {Apc Routine Arg : Type} [DecidableEq Apc]

/-- A thread with what an insertion reads of its wait. -/
structure UserThread (Apc Routine Arg : Type) where
  run : ApcRun Apc Routine Arg
  state : KThreadState
  waitMode : KProcessorMode
  alertable : Bool
  waitIrql : Nat

namespace UserThread
variable (σ : UserThread Apc Routine Arg)

/-- `PtWakeThreadEx` for a thread that waits. -/
def wake : UserThread Apc Routine Arg := { σ with state := .ready }

def setPending : UserThread Apc Routine Arg :=
  { σ with run := { σ.run with thread := { σ.run.thread with userApcPending := true } } }

/-- The end of `KiInsertQueueApc`, for a call that is in its list. -/
def requestThread (apc : Apc) (bySelf : Bool) : UserThread Apc Routine Arg :=
  let thread := σ.run.thread
  if (thread.apc apc).apcStateIndex ≠ some thread.apcStateIndex ∨ bySelf = true then σ
  else if (thread.apc apc).apcMode = .kernelMode then
    if σ.state = .waiting ∧ σ.waitIrql = 0 ∧ thread.specialApcDisable = 0 ∧
        (thread.isNormal apc = false ∨ thread.kernelApcDisable = 0 ∧ thread.kernelApcInProgress = false) then
      σ.wake
    else σ
  else if σ.state = .waiting ∧ σ.waitMode = .userMode ∧ (σ.alertable = true ∨ thread.userApcPending = true) then
    σ.setPending.wake
  else σ

end UserThread

/-- `bySelf` tells that the thread itself inserts the call. A wait sets the thread's fields, and a
thread that is resumed runs. -/
inductive UserAction (Apc Routine Arg : Type) where
  | insert (apc : Apc) (systemArgument1 systemArgument2 : Arg) (bySelf : Bool)
  | deliver (deliveryMode : KProcessorMode)
  | kernelRoutineReturns (captured : Captured Routine Arg)
  | wait (waitMode : KProcessorMode) (alertable : Bool) (waitIrql : Nat)
  | resume

def userStep (σ : UserThread Apc Routine Arg) : UserAction Apc Routine Arg → Option (UserThread Apc Routine Arg)
  | .insert apc a b bySelf => do
      let run ← apcStep σ.run (.insert apc a b)
      if (ksInsertQueueApc σ.run.thread apc a b).2 then some (UserThread.requestThread { σ with run } apc bySelf)
      else some { σ with run }
  | .deliver deliveryMode => (apcStep σ.run (.deliver deliveryMode)).map fun run => { σ with run }
  | .kernelRoutineReturns captured =>
    (apcStep σ.run (.kernelRoutineReturns captured)).map fun run => { σ with run }
  | .wait waitMode alertable waitIrql => some { σ with state := .waiting, waitMode, alertable, waitIrql }
  | .resume => some { σ with state := .running }

section Property
variable (σ : UserThread Apc Routine Arg)

/-- The calls of a user list that are not delivered yet, the one inserted first in front. -/
def UserThread.waitingApcs (environment : ApcEnvironment) : List Apc :=
  queuedApcs environment .userMode σ.run.events

def UserThread.userList (environment : ApcEnvironment) : List Apc :=
  σ.run.thread.apcListHead environment .userMode

def UserThread.AlertableWait : Prop := σ.state = .waiting ∧ σ.alertable = true

/-- A delivery takes one call off the current user list, the one that was inserted first. -/
inductive HappensNext : UserAction Apc Routine Arg → List (ApcEvent Apc) → Prop where
  | nothing : HappensNext action σ.run.events
  | inserts : HappensNext (.insert apc a b bySelf) (.inserted apc environment mode :: σ.run.events)
  | delivers : (σ.waitingApcs σ.run.thread.apcStateIndex).head? = some apc →
      HappensNext (.deliver deliveryMode) (.delivered apc :: σ.run.events)

/-- What is asked of a step: the call that comes next is the one inserted first, at most one is
delivered and none more often than it was inserted, and an insertion makes calls deliverable only in
an alertable wait. -/
structure UserApcsHandled (action : UserAction Apc Routine Arg) (σ' : UserThread Apc Routine Arg) : Prop where
  next (environment) : (σ'.userList environment).head? = (σ'.waitingApcs environment).head?
  one : HappensNext σ action σ'.run.events
  once (apc) : deliveries apc σ'.run.events ≤ insertions apc σ'.run.events
  allowed {apc a b bySelf} : action = .insert apc a b bySelf → ¬ σ.AlertableWait →
    σ'.run.thread.userApcPending = true → σ.run.thread.userApcPending = true

/-- A call that can be inserted finds its list empty, and the thread in an alertable wait or with its
user calls deliverable already. -/
def InsertsAlone (action : UserAction Apc Routine Arg) : Prop :=
  ∀ apc a b bySelf, action = .insert apc a b bySelf → σ.run.thread.apcQueueable = true →
    (σ.run.thread.apc apc).inserted = false →
    σ.userList ((σ.run.thread.apc apc).apcStateIndex.getD σ.run.thread.apcStateIndex) = [] ∧
      (σ.AlertableWait ∨ σ.run.thread.userApcPending = true)

end Property

section Steps

/-- All calls are normal user calls, and the user lists are in the order of insertion. -/
structure UserQueued (σ : UserThread Apc Routine Arg) : Prop where
  queued : ApcsQueued σ.run.thread σ.run.events
  user (apc) : (σ.run.thread.apc apc).apcMode = .userMode ∧ σ.run.thread.isNormal apc = true
  frames : ∀ frame ∈ σ.run.thread.frames, ∃ apc, frame = .userKernelRoutine apc
  order (environment) : σ.userList environment = σ.waitingApcs environment

variable {σ σ' : UserThread Apc Routine Arg} {action : UserAction Apc Routine Arg} {apc : Apc} {a b : Arg}
  {bySelf : Bool}

theorem UserQueued.next (queued : UserQueued σ) (environment : ApcEnvironment) :
    (σ.userList environment).head? = (σ.waitingApcs environment).head? := by
  rw [queued.order]

theorem UserQueued.once (queued : UserQueued σ) (apc : Apc) :
    deliveries apc σ.run.events ≤ insertions apc σ.run.events := by
  rw [queued.queued.counts apc]
  exact Nat.le_add_right _ _

theorem UserQueued.congr (queued : UserQueued σ) (calls : σ'.run.thread.apc = σ.run.thread.apc)
    (lists : σ'.run.thread.apcListHead = σ.run.thread.apcListHead) (events : σ'.run.events = σ.run.events)
    (frames : ∀ frame ∈ σ'.run.thread.frames, frame ∈ σ.run.thread.frames) : UserQueued σ' := by
  refine ⟨?_, fun apc => ?_, fun frame member => queued.frames frame (frames frame member), fun environment => ?_⟩
  · rw [events]
    exact queued.queued.congr calls lists
  · rw [ThreadApcs.isNormal, calls]
    exact queued.user apc
  · rw [UserThread.userList, UserThread.waitingApcs, lists, events]
    exact queued.order environment

theorem UserQueued.kernel_empty (queued : UserQueued σ) (environment : ApcEnvironment) :
    σ.run.thread.apcListHead environment .kernelMode = [] := by
  refine List.eq_nil_iff_forall_not_mem.mpr fun apc member => ?_
  have kernel := (queued.queued.listed member).2.2
  rw [(queued.user apc).1] at kernel
  cases kernel

theorem ksInsertQueueApc_refused {thread : ThreadApcs Apc Routine Arg}
    (refused : (ksInsertQueueApc thread apc a b).2 = false) : (ksInsertQueueApc thread apc a b).1 = thread := by
  rw [ksInsertQueueApc] at refused ⊢
  split at refused
  · next same => rw [if_pos same]
  · cases refused

theorem ksInsertQueueApc_taken {thread : ThreadApcs Apc Routine Arg}
    (taken : (ksInsertQueueApc thread apc a b).2 = true) :
    thread.apcQueueable = true ∧ (thread.apc apc).inserted = false := by
  rw [ksInsertQueueApc] at taken
  split at taken
  · cases taken
  · next free => simpa using free

theorem ksInsertQueueApc_pending {thread : ThreadApcs Apc Routine Arg}
    (user : (thread.apc apc).apcMode = .userMode) (normal : thread.isNormal apc = true)
    (taken : (ksInsertQueueApc thread apc a b).2 = true) :
    (ksInsertQueueApc thread apc a b).1.userApcPending = true := by
  rw [ThreadApcs.isNormal] at normal
  rw [ksInsertQueueApc] at taken ⊢
  split at taken
  · cases taken
  · next free =>
      rw [if_neg free]
      simp [kiInsertQueueApc, placeApc, ThreadApcs.isNormal, ThreadApcs.setList, user, normal]

omit [DecidableEq Apc] in
theorem UserThread.requestThread_run (pending : σ.run.thread.userApcPending = true) (apc : Apc) (bySelf : Bool) :
    (σ.requestThread apc bySelf).run = σ.run := by
  have same : { σ.run with thread := { σ.run.thread with userApcPending := true } } = σ.run := by
    rw [← pending]
  rw [requestThread]
  split
  · rfl
  · split
    · split <;> rfl
    · split
      · exact same
      · rfl

variable (queued : UserQueued σ)
include queued

theorem UserQueued.insert_cases (stepped : userStep σ (.insert apc a b bySelf) = some σ') :
    ((ksInsertQueueApc σ.run.thread apc a b).2 = false ∧ σ' = σ) ∨
    ((ksInsertQueueApc σ.run.thread apc a b).2 = true ∧
      (σ.run.thread.apc apc).inserted = false ∧ σ'.run.thread.userApcPending = true ∧
      ApcInserted σ.run.thread σ'.run.thread apc ∧ σ'.run.events = .inserted apc
        ((σ.run.thread.apc apc).apcStateIndex.getD σ.run.thread.apcStateIndex) .userMode :: σ.run.events) := by
  simp only [userStep, apcStep, bind_eq_bind, bind_some] at stepped
  have user := queued.user apc
  cases taken : (ksInsertQueueApc σ.run.thread apc a b).2 with
  | false =>
    simp only [taken, Bool.false_eq_true, if_false, ksInsertQueueApc_refused taken] at stepped
    exact .inl ⟨rfl, (some.inj stepped).symm⟩
  | true =>
    simp only [taken, if_true] at stepped
    obtain rfl := some.inj stepped
    obtain ⟨queueable, absent⟩ := ksInsertQueueApc_taken taken
    obtain ⟨thread, same, inserted⟩ := ksInsertQueueApc_fresh (a := a) (b := b) queueable absent
    have pending := ksInsertQueueApc_pending user.1 user.2 taken
    refine .inr ⟨rfl, absent, ?_⟩
    rw [UserThread.requestThread_run pending]
    refine ⟨pending, ?_, by simp only [user.1]⟩
    rw [same]
    exact inserted

theorem UserQueued.insert_lists (inserted : ApcInserted σ.run.thread σ'.run.thread apc)
    (events : σ'.run.events = .inserted apc environment .userMode :: σ.run.events)
    (home : (σ.run.thread.apc apc).apcStateIndex.getD σ.run.thread.apcStateIndex = environment)
    (e : ApcEnvironment) :
    σ'.userList e = (if e = environment then apc :: σ.userList e else σ.userList e) ∧
      σ'.waitingApcs e = if e = environment then σ.userList e ++ [apc] else σ.userList e := by
  obtain ⟨user, normal⟩ := queued.user apc
  constructor
  · rw [UserThread.userList, inserted.lists, home, user, placed, if_pos normal]
    simp [UserThread.userList]
  · rw [UserThread.waitingApcs, events, queuedApcs, queued.order]
    simp only [and_true, eq_comm (a := environment)]
    rfl

theorem UserQueued.insert (absent : (σ.run.thread.apc apc).inserted = false)
    (inserted : ApcInserted σ.run.thread σ'.run.thread apc)
    (events : σ'.run.events = .inserted apc
      ((σ.run.thread.apc apc).apcStateIndex.getD σ.run.thread.apcStateIndex) .userMode :: σ.run.events)
    (alone : σ.userList ((σ.run.thread.apc apc).apcStateIndex.getD σ.run.thread.apcStateIndex) = []) :
    UserQueued σ' := by
  have user := queued.user
  refine ⟨?_, fun x => ?_, ?_, fun e => ?_⟩
  · rw [events, ← (user apc).1]
    exact queued.queued.insert absent inserted
  · rw [inserted.isNormal]
    refine ⟨?_, (user x).2⟩
    obtain ⟨record, calls, _, _, mode, _⟩ := inserted.calls
    rw [calls, Function.update_apply]
    split
    · exact mode.trans (user apc).1
    · exact (user x).1
  · rw [inserted.frames]
    exact queued.frames
  · obtain ⟨list, waiting⟩ := queued.insert_lists inserted events rfl e
    rw [list, waiting]
    split
    · next here =>
        rw [here, alone]
        rfl
    · rfl

theorem UserQueued.take {rest : List Apc} (list : σ.userList σ.run.thread.apcStateIndex = apc :: rest) :
    UserQueued { σ with run := ⟨takeUserApc σ.run.thread apc, .delivered apc :: σ.run.events⟩ } := by
  have member : apc ∈ σ.userList σ.run.thread.apcStateIndex := list ▸ List.mem_cons_self
  have normal : (takeUserApc σ.run.thread apc).isNormal = σ.run.thread.isNormal := isNormal_update rfl
  refine ⟨queued.queued.take member rfl rfl, fun x => ⟨?_, (congrFun normal x).trans (queued.user x).2⟩, ?_,
    fun e => ?_⟩
  · refine Eq.trans ?_ (queued.user x).1
    change (Function.update σ.run.thread.apc apc { σ.run.thread.apc apc with inserted := false } x).apcMode = _
    rw [Function.update_apply]
    split
    · next same => rw [same]
    · rfl
  · rintro frame inside
    rcases List.mem_cons.mp inside with rfl | before
    · exact ⟨apc, rfl⟩
    · exact queued.frames frame before
  · change (if e = σ.run.thread.apcStateIndex ∧ KProcessorMode.userMode = .userMode then
      (σ.userList σ.run.thread.apcStateIndex).erase apc else σ.userList e) = (σ.waitingApcs e).erase apc
    rw [← queued.order]
    split
    · next here => rw [here.1]
    · next away =>
        refine (List.erase_of_not_mem fun elsewhere => away ⟨?_, rfl⟩).symm
        exact some.inj ((queued.queued.listed elsewhere).2.1.symm.trans (queued.queued.listed member).2.1)

theorem UserQueued.deliver_cases (stepped : userStep σ (.deliver deliveryMode) = some σ') :
    (σ'.run.events = σ.run.events ∧ UserQueued σ') ∨
    ∃ apc, (σ.userList σ.run.thread.apcStateIndex).head? = some apc ∧
      σ'.run.events = .delivered apc :: σ.run.events ∧ UserQueued σ' := by
  rw [userStep] at stepped
  obtain ⟨run, ran, rfl⟩ := map_eq_some_iff.mp stepped
  obtain rfl := some.inj ran
  have unrequested : UserQueued { σ with
      run := ⟨{ σ.run.thread with kernelApcPending := false }, σ.run.events⟩ } :=
    queued.congr rfl rfl rfl fun frame member => member
  have delivery : ksDeliverApc σ.run.thread deliveryMode =
      deliverUserApc { σ.run.thread with kernelApcPending := false } deliveryMode := by
    rw [ksDeliverApc, deliverPass, queued.kernel_empty σ.run.thread.apcStateIndex]
  rw [delivery, deliverUserApc]
  cases list : σ.run.thread.apcListHead σ.run.thread.apcStateIndex .userMode with
  | nil => exact .inl ⟨rfl, unrequested⟩
  | cons apc rest =>
    simp only
    split
    · exact .inr ⟨apc, by rw [UserThread.userList, list]; rfl, rfl, unrequested.take list⟩
    · exact .inl ⟨rfl, unrequested⟩

theorem UserQueued.returns {captured : Captured Routine Arg}
    (stepped : userStep σ (.kernelRoutineReturns captured) = some σ') :
    σ'.run.events = σ.run.events ∧ UserQueued σ' := by
  rw [userStep] at stepped
  obtain ⟨run, ran, rfl⟩ := map_eq_some_iff.mp stepped
  rw [apcStep] at ran
  obtain ⟨result, done, rfl⟩ := map_eq_some_iff.mp ran
  rw [kernelRoutineReturns] at done
  split at done
  · next frames =>
      obtain ⟨_, same⟩ := queued.frames _ (frames ▸ List.mem_cons_self)
      cases same
  · next frames =>
      obtain rfl := some.inj done
      exact ⟨rfl, queued.congr rfl rfl rfl fun frame member => frames ▸ List.mem_cons_of_mem _ member⟩
  · cases done

theorem UserQueued.step (alone : InsertsAlone σ action)
    (stepped : userStep σ action = some σ') : UserQueued σ' ∧ UserApcsHandled σ action σ' := by
  have handled : UserQueued σ' → HappensNext σ action σ'.run.events →
      (∀ apc a b bySelf, action = .insert apc a b bySelf → ¬ σ.AlertableWait →
        σ'.run.thread.userApcPending = true → σ.run.thread.userApcPending = true) →
      UserQueued σ' ∧ UserApcsHandled σ action σ' :=
    fun queued' one allowed => ⟨queued', queued'.next, one, queued'.once, fun same => allowed _ _ _ _ same⟩
  cases action with
  | insert apc a b bySelf =>
    rcases queued.insert_cases stepped with ⟨_, rfl⟩ | ⟨taken, absent, pending, inserted, events⟩
    · exact handled queued .nothing fun _ _ _ _ _ _ => id
    · obtain ⟨empty, open_⟩ := alone apc a b bySelf rfl (ksInsertQueueApc_taken taken).1 absent
      refine handled (queued.insert absent inserted events empty) (events ▸ .inserts) ?_
      exact fun _ _ _ _ _ closed _ => open_.resolve_left closed
  | deliver deliveryMode =>
    rcases queued.deliver_cases stepped with ⟨events, queued'⟩ | ⟨apc, first, events, queued'⟩
    · exact handled queued' (events ▸ .nothing) nofun
    · exact handled queued' (events ▸ .delivers (queued.next _ ▸ first)) nofun
  | kernelRoutineReturns captured =>
    obtain ⟨events, queued'⟩ := queued.returns stepped
    exact handled queued' (events ▸ .nothing) nofun
  | wait | resume =>
    obtain rfl := some.inj stepped
    exact handled (queued.congr rfl rfl rfl fun frame member => member) .nothing nofun

theorem UserQueued.handled_iff (stepped : userStep σ action = some σ') :
    UserApcsHandled σ action σ' ↔ InsertsAlone σ action := by
  refine ⟨fun handled => ?_, fun alone => (queued.step alone stepped).2⟩
  rintro apc a b bySelf rfl queueable absent
  rcases queued.insert_cases stepped with ⟨refused, _⟩ | ⟨_, _, pending, inserted, events⟩
  · obtain ⟨thread, same, _⟩ := ksInsertQueueApc_fresh (a := a) (b := b) queueable absent
    rw [same] at refused
    cases refused
  · obtain ⟨list, waiting⟩ := queued.insert_lists inserted events rfl
      ((σ.run.thread.apc apc).apcStateIndex.getD σ.run.thread.apcStateIndex)
    have next := handled.next ((σ.run.thread.apc apc).apcStateIndex.getD σ.run.thread.apcStateIndex)
    rw [list, waiting, if_pos rfl, if_pos rfl] at next
    refine ⟨?_, or_iff_not_imp_left.mpr fun closed => handled.allowed rfl closed pending⟩
    cases before : σ.userList ((σ.run.thread.apc apc).apcStateIndex.getD σ.run.thread.apcStateIndex) with
    | nil => rfl
    | cons x rest =>
      rw [before] at next
      obtain rfl := some.inj next
      have listed := queued.queued.listed (show apc ∈ σ.run.thread.apcListHead _ .userMode from
        before ▸ List.mem_cons_self)
      exact absurd (listed.1.symm.trans absent) Bool.noConfusion

end Steps

section Runs

def initializedUserThread (apc : Apc → KApc Routine Arg) (apcStateIndex : ApcEnvironment) :
    UserThread Apc Routine Arg :=
  ⟨⟨initializedThread apc apcStateIndex, []⟩, .running, .kernelMode, false, 0⟩

/-- The calls are normal user calls. -/
theorem user_apcs_iff {apc : Apc → KApc Routine Arg} {actions : List (UserAction Apc Routine Arg)}
    (user : ∀ x, (apc x).apcMode = .userMode ∧ (apc x).normalRoutine.isSome = true)
    (apcStateIndex : ApcEnvironment) :
    Along (fun σ action => ∀ σ', userStep σ action = some σ' → UserApcsHandled σ action σ') userStep
      (initializedUserThread apc apcStateIndex) actions ↔
    Along (fun σ action => InsertsAlone σ action) userStep (initializedUserThread apc apcStateIndex) actions := by
  refine along_good_iff (P := UserQueued) (fun queued stepped => queued.handled_iff stepped) ?_
    (fun queued alone stepped => (queued.step alone stepped).1) ?_
  · rintro σ action queued stuck apc a b bySelf rfl queueable absent
    obtain ⟨thread, same, _⟩ := ksInsertQueueApc_fresh (a := a) (b := b) queueable absent
    simp [userStep, apcStep, same] at stuck
  · refine ⟨⟨fun environment => rfl, fun environment mode => List.nodup_nil, fun member => ?_, fun inserted => ?_,
      fun apc => rfl⟩, user, fun frame member => ?_, fun environment => rfl⟩
    · exact absurd member List.not_mem_nil
    · exact absurd inserted Bool.noConfusion
    · exact absurd member List.not_mem_nil

def sampleUserApc (n : Nat) : KApc Nat Unit := ksInitializeApc (some .original) (some n) .userMode () ()

/-- One call that is inserted in an alertable wait, and delivered. -/
theorem user_apcs_iff_alertable :
    Along (fun σ action => ∀ σ', userStep σ action = some σ' → UserApcsHandled σ action σ') userStep
      (initializedUserThread sampleUserApc .original)
      [.wait .userMode true 0, .insert 0 () () false, .resume, .deliver .userMode] := by
  refine (user_apcs_iff (fun x => ⟨rfl, rfl⟩) .original).mpr
    ⟨fun _ _ _ _ same => (nomatch same), fun σ₁ stepped => ?_⟩
  obtain rfl := some.inj stepped
  refine ⟨fun apc a b bySelf same _ _ => ?_, fun σ₂ stepped => ⟨fun _ _ _ _ same => (nomatch same), fun σ₃ stepped =>
    ⟨fun _ _ _ _ same => (nomatch same), fun σ₄ stepped => trivial⟩⟩⟩
  cases same
  exact ⟨rfl, .inl ⟨rfl, rfl⟩⟩

/-- Of two calls that are inserted in an alertable wait the second one is delivered first, and a call
that is inserted into a running thread is delivered although the thread never waits. -/
theorem user_apcs_reversed :
    ((∃ σ, exec userStep (initializedUserThread sampleUserApc .original) [.wait .userMode true 0,
        .insert 0 () () false, .insert 1 () () false, .resume, .deliver .userMode] = some σ ∧
        σ.run.events.head? = some (.delivered 1)) ∧
      ¬ Along (fun σ action => ∀ σ', userStep σ action = some σ' → UserApcsHandled σ action σ') userStep
        (initializedUserThread sampleUserApc .original) [.wait .userMode true 0, .insert 0 () () false,
          .insert 1 () () false, .resume, .deliver .userMode]) ∧
    (∃ σ, exec userStep (initializedUserThread sampleUserApc .original)
        [.insert 0 () () false, .deliver .userMode] = some σ ∧ σ.run.events.head? = some (.delivered 0)) ∧
      ¬ Along (fun σ action => ∀ σ', userStep σ action = some σ' → UserApcsHandled σ action σ') userStep
        (initializedUserThread sampleUserApc .original) [.insert 0 () () false, .deliver .userMode] := by
  refine ⟨⟨⟨_, rfl, rfl⟩, fun along => ?_⟩, ⟨_, rfl, rfl⟩, fun along => ?_⟩
  · have next := (((along.2 _ rfl).2 _ rfl).1 _ rfl).next .original
    cases next
  · have pending := (along.1 _ rfl).allowed rfl (fun alertable => by cases alertable.1) rfl
    cases pending

end Runs
end VeaOS.Ks
