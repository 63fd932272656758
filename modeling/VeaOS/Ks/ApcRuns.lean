import VeaOS.Foundation.Runs
import VeaOS.Foundation.StablePartition
import VeaOS.Ks.ApcQueue

/-! Runs of insertions, deliveries and the routines these call. The kernel list
holds the special calls before the normal ones, and a normal routine starts only
where normal calls are enabled, provided that kernel routines leave that as it was. -/
namespace VeaOS.Ks
open Foundation Transition Function Option
variable {Apc Routine Arg : Type} [DecidableEq Apc]

/-- What happens to the calls, the latest first. -/
inductive ApcEvent (Apc : Type) where
  | inserted (apc : Apc) (environment : ApcEnvironment) (mode : KProcessorMode)
  | delivered (apc : Apc)

/-- The calls of one list that are not delivered yet, in the order of insertion. -/
def queuedApcs (environment : ApcEnvironment) (mode : KProcessorMode) : List (ApcEvent Apc) → List Apc
  | [] => []
  | .inserted apc e m :: events =>
    if e = environment ∧ m = mode then queuedApcs environment mode events ++ [apc]
    else queuedApcs environment mode events
  | .delivered apc :: events => (queuedApcs environment mode events).erase apc

def insertions (apc : Apc) : List (ApcEvent Apc) → Nat
  | [] => 0
  | .inserted x _ _ :: events => insertions apc events + if x = apc then 1 else 0
  | .delivered _ :: events => insertions apc events

def deliveries (apc : Apc) : List (ApcEvent Apc) → Nat
  | [] => 0
  | .inserted _ _ _ :: events => deliveries apc events
  | .delivered x :: events => deliveries apc events + if x = apc then 1 else 0

structure ApcRun (Apc Routine Arg : Type) where
  thread : ThreadApcs Apc Routine Arg
  events : List (ApcEvent Apc)

/-- A delivery's result with the event it stands for. -/
def recordDelivery (result : ThreadApcs Apc Routine Arg × Option Apc) (events : List (ApcEvent Apc)) :
    ApcRun Apc Routine Arg :=
  ⟨result.1, match result.2 with
    | none => events
    | some apc => .delivered apc :: events⟩

def apcStep (σ : ApcRun Apc Routine Arg) : ApcAction Apc Routine Arg → Option (ApcRun Apc Routine Arg)
  | .insert apc a b =>
    let result := ksInsertQueueApc σ.thread apc a b
    some ⟨result.1,
      if result.2 then
        .inserted apc ((σ.thread.apc apc).apcStateIndex.getD σ.thread.apcStateIndex)
          (σ.thread.apc apc).apcMode :: σ.events
      else σ.events⟩
  | .deliver deliveryMode => some (recordDelivery (ksDeliverApc σ.thread deliveryMode) σ.events)
  | .kernelRoutineReturns captured =>
    (kernelRoutineReturns σ.thread captured).map (recordDelivery · σ.events)
  | .normalRoutineReturns => (normalRoutineReturns σ.thread).map (recordDelivery · σ.events)
  | .enterCriticalRegion =>
    some ⟨{ σ.thread with kernelApcDisable := σ.thread.kernelApcDisable - 1 }, σ.events⟩
  | .leaveCriticalRegion =>
    some ⟨{ σ.thread with kernelApcDisable := σ.thread.kernelApcDisable + 1 }, σ.events⟩
  | .enterGuardedRegion =>
    some ⟨{ σ.thread with specialApcDisable := σ.thread.specialApcDisable - 1 }, σ.events⟩
  | .leaveGuardedRegion =>
    some ⟨{ σ.thread with specialApcDisable := σ.thread.specialApcDisable + 1 }, σ.events⟩

/-- A kernel routine leaves `KernelApcDisable` as it was at its call, and that of
a special call supplies no normal routine. -/
def RoutineReturns (σ : ApcRun Apc Routine Arg) : ApcAction Apc Routine Arg → Prop
  | .kernelRoutineReturns captured => ∀ deliveryMode apc before disable frames,
      σ.thread.frames = .kernelRoutine deliveryMode apc before disable :: frames →
      σ.thread.kernelApcDisable = disable ∧
        (σ.thread.isNormal apc = false → captured.normalRoutine = none)
  | _ => True

def ApcFrame.isNormalRoutine : ApcFrame Apc Routine Arg → Bool
  | .normalRoutine _ _ => true
  | _ => false

def inNormalRoutine (frames : List (ApcFrame Apc Routine Arg)) : Bool :=
  frames.any ApcFrame.isNormalRoutine

structure ApcsQueued (σ : ThreadApcs Apc Routine Arg) (events : List (ApcEvent Apc)) : Prop where
  kernel (environment) : σ.apcListHead environment .kernelMode =
    stablePartition σ.isNormal (queuedApcs environment .kernelMode events)
  once (environment mode) : (σ.apcListHead environment mode).Nodup
  listed {apc environment mode} : apc ∈ σ.apcListHead environment mode →
    (σ.apc apc).inserted = true ∧ (σ.apc apc).apcStateIndex = some environment ∧
      (σ.apc apc).apcMode = mode
  present {apc} : (σ.apc apc).inserted = true →
    ∃ environment mode, apc ∈ σ.apcListHead environment mode
  counts (apc) : insertions apc events =
    deliveries apc events + if (σ.apc apc).inserted then 1 else 0

/-- The frames of routines: a normal call's kernel routine was called with normal
calls enabled, and nothing below a normal routine is one. -/
def NestedApcs (isNormal : Apc → Bool) : List (ApcFrame Apc Routine Arg) → Prop
  | [] => True
  | .kernelRoutine _ apc _ disable :: frames =>
    (isNormal apc = true → disable = 0 ∧ inNormalRoutine frames = false) ∧ NestedApcs isNormal frames
  | .normalRoutine _ _ :: frames => inNormalRoutine frames = false ∧ NestedApcs isNormal frames
  | .userKernelRoutine _ :: frames => NestedApcs isNormal frames

structure ApcsOrdered (σ : ThreadApcs Apc Routine Arg) (events : List (ApcEvent Apc)) : Prop where
  queued : ApcsQueued σ events
  nested : NestedApcs σ.isNormal σ.frames
  inProgress : σ.kernelApcInProgress = inNormalRoutine σ.frames

section Lists
variable {σ : ThreadApcs Apc Routine Arg}

theorem ApcsQueued.congr {σ' : ThreadApcs Apc Routine Arg} (queued : ApcsQueued σ events)
    (calls : σ'.apc = σ.apc) (lists : σ'.apcListHead = σ.apcListHead) : ApcsQueued σ' events := by
  have isNormal : σ'.isNormal = σ.isNormal := by
    funext apc
    simp only [ThreadApcs.isNormal, calls]
  constructor
  · simpa only [lists, isNormal] using queued.kernel
  · simpa only [lists] using queued.once
  · rw [lists, calls]
    exact queued.listed
  · rw [lists, calls]
    exact queued.present
  · rw [calls]
    exact queued.counts

theorem ApcsQueued.distinct (queued : ApcsQueued σ events) (environment : ApcEnvironment) :
    (queuedApcs environment .kernelMode events).Nodup := by
  have once := queued.once environment .kernelMode
  rw [queued.kernel] at once
  exact stablePartition_perm.nodup_iff.mp once

theorem ApcsQueued.take {σ' : ThreadApcs Apc Routine Arg} (queued : ApcsQueued σ events)
    (member : apc ∈ σ.apcListHead environment mode)
    (lists : σ'.apcListHead = ((σ.removeEntryList environment mode apc).setInserted apc false).apcListHead)
    (calls : σ'.apc = update σ.apc apc { σ.apc apc with inserted := false }) :
    ApcsQueued σ' (.delivered apc :: events) := by
  obtain ⟨inserted, index, apcMode⟩ := queued.listed member
  have isNormal : σ'.isNormal = σ.isNormal := by
    funext x
    simp only [ThreadApcs.isNormal, calls, update_apply]
    split
    next same => rw [same]
    next => rfl
  have list : ∀ e m, σ'.apcListHead e m = (σ.apcListHead e m).erase apc := by
    intro e m
    rw [lists]
    simp only [ThreadApcs.setInserted, ThreadApcs.removeEntryList, ThreadApcs.setList]
    split
    next same => rw [same.1, same.2]
    next other =>
      symm
      apply List.erase_of_not_mem
      intro elsewhere
      obtain ⟨_, index', mode'⟩ := queued.listed elsewhere
      exact other ⟨some.inj (index'.symm.trans index), mode'.symm.trans apcMode⟩
  have other : ∀ {x}, x ≠ apc → σ'.apc x = σ.apc x := by
    intro x different
    rw [calls, update_of_ne different]
  have gone : (σ'.apc apc).inserted = false := by
    rw [calls, update_self]
  constructor
  case kernel =>
    intro e
    rw [list, queued.kernel, isNormal, stablePartition_erase (queued.distinct e), queuedApcs]
  case once =>
    intro e m
    rw [list]
    exact (queued.once e m).erase apc
  case listed =>
    intro x e m inside
    rw [list, (queued.once e m).mem_erase_iff] at inside
    rw [other inside.1]
    exact queued.listed inside.2
  case present =>
    intro x still
    by_cases same : x = apc
    · rw [same, gone] at still
      cases still
    · rw [other same] at still
      obtain ⟨e, m, inside⟩ := queued.present still
      refine ⟨e, m, ?_⟩
      rw [list, (queued.once e m).mem_erase_iff]
      exact ⟨same, inside⟩
  case counts =>
    intro x
    have before := queued.counts x
    by_cases same : x = apc
    · subst same
      rw [gone]
      simp only [insertions, deliveries, before, inserted, if_true, Bool.false_eq_true, if_false, Nat.add_zero]
    · simp only [insertions, deliveries, before, other same, if_neg (Ne.symm same), Nat.add_zero]

def placed (σ : ThreadApcs Apc Routine Arg) (mode : KProcessorMode) (apc : Apc) (list : List Apc) :
    List Apc :=
  if σ.isNormal apc then if mode ≠ .kernelMode then apc :: list else list ++ [apc]
  else list.rdropWhile σ.isNormal ++ apc :: list.rtakeWhile σ.isNormal

omit [DecidableEq Apc] in
theorem placed_perm {list : List Apc} : (placed σ mode apc list).Perm (apc :: list) := by
  rw [placed]
  split
  · split
    · exact List.Perm.refl _
    · exact List.perm_append_singleton apc list
  · apply List.perm_middle.trans
    rw [List.rdropWhile_append_rtakeWhile]

theorem isNormal_update {record : KApc Routine Arg} (same : record.normalRoutine = (σ.apc apc).normalRoutine) :
    ThreadApcs.isNormal { σ with apc := update σ.apc apc record } = σ.isNormal := by
  funext x
  simp only [ThreadApcs.isNormal, update_apply]
  split
  next here => rw [same, here]
  next => rfl

/-- Placing a call changes its list only, and no flag of the kernel calls. -/
structure ApcPlaced (σ σ' : ThreadApcs Apc Routine Arg) (environment : ApcEnvironment)
    (mode : KProcessorMode) (apc : Apc) : Prop where
  calls : σ'.apc = σ.apc
  lists (e m) : σ'.apcListHead e m =
    if e = environment ∧ m = mode then placed σ mode apc (σ.apcListHead e m) else σ.apcListHead e m
  frames : σ'.frames = σ.frames
  inProgress : σ'.kernelApcInProgress = σ.kernelApcInProgress

omit [DecidableEq Apc] in
theorem placeApc_placed (σ : ThreadApcs Apc Routine Arg) (environment : ApcEnvironment)
    (mode : KProcessorMode) (apc : Apc) :
    ApcPlaced σ (placeApc σ environment mode apc) environment mode apc := by
  have placing : ∀ list, list = placed σ mode apc (σ.apcListHead environment mode) → ∀ e m,
      (σ.setList environment mode list).apcListHead e m = if e = environment ∧ m = mode then
        placed σ mode apc (σ.apcListHead e m) else σ.apcListHead e m := by
    rintro list rfl e m
    simp only [ThreadApcs.setList]
    split
    next here => rw [here.1, here.2]
    next => rfl
  simp only [placeApc]
  split
  next normal =>
    split
    next user => exact ⟨rfl, placing _ (by rw [placed, if_pos normal, if_pos user]), rfl, rfl⟩
    next kernel => exact ⟨rfl, placing _ (by rw [placed, if_pos normal, if_neg kernel]), rfl, rfl⟩
  next special => exact ⟨rfl, placing _ (by rw [placed, if_neg special]), rfl, rfl⟩

structure ApcInserted (σ σ' : ThreadApcs Apc Routine Arg) (apc : Apc) : Prop where
  calls : ∃ record, σ'.apc = Function.update σ.apc apc record ∧ record.inserted = true ∧
    record.apcStateIndex = some ((σ.apc apc).apcStateIndex.getD σ.apcStateIndex) ∧
    record.apcMode = (σ.apc apc).apcMode ∧ record.normalRoutine = (σ.apc apc).normalRoutine
  lists (e m) : σ'.apcListHead e m =
    if e = (σ.apc apc).apcStateIndex.getD σ.apcStateIndex ∧ m = (σ.apc apc).apcMode then
      placed σ (σ.apc apc).apcMode apc (σ.apcListHead e m) else σ.apcListHead e m
  frames : σ'.frames = σ.frames
  inProgress : σ'.kernelApcInProgress = σ.kernelApcInProgress

theorem ksInsertQueueApc_fresh (queueable : σ.apcQueueable = true) (absent : (σ.apc apc).inserted = false) :
    ∃ σ', ksInsertQueueApc σ apc a b = (σ', true) ∧ ApcInserted σ σ' apc := by
  have free : ¬ (!σ.apcQueueable || (σ.apc apc).inserted) = true := by simp [queueable, absent]
  rw [ksInsertQueueApc, if_neg free]
  refine ⟨_, rfl, ?_⟩
  simp only [kiInsertQueueApc, update_self, update_idem]
  generalize environment : (σ.apc apc).apcStateIndex.getD σ.apcStateIndex = e
  let record : KApc Routine Arg := { σ.apc apc with
    apcStateIndex := some e, systemArgument1 := a, systemArgument2 := b, inserted := true }
  have done := placeApc_placed { σ with apc := update σ.apc apc record } e (σ.apc apc).apcMode apc
  have isNormal : ThreadApcs.isNormal { σ with apc := update σ.apc apc record } = σ.isNormal :=
    isNormal_update rfl
  have inserted : ApcInserted σ (placeApc { σ with apc := update σ.apc apc record } e
      (σ.apc apc).apcMode apc) apc := by
    constructor
    case calls => exact ⟨record, done.calls, rfl, congrArg some environment.symm, rfl, rfl⟩
    case lists =>
      intro e' m'
      rw [environment, done.lists, placed, placed, isNormal]
    case frames => exact done.frames
    case inProgress => exact done.inProgress
  split
  · exact ⟨inserted.calls, inserted.lists, inserted.frames, inserted.inProgress⟩
  · exact inserted

theorem ApcInserted.isNormal {σ' : ThreadApcs Apc Routine Arg} (inserted : ApcInserted σ σ' apc) :
    σ'.isNormal = σ.isNormal := by
  obtain ⟨record, calls, _, _, _, same⟩ := inserted.calls
  rw [← isNormal_update (σ := σ) same]
  funext x
  simp only [ThreadApcs.isNormal, calls]

theorem ApcsQueued.insert {σ' : ThreadApcs Apc Routine Arg} (queued : ApcsQueued σ events)
    (absent : (σ.apc apc).inserted = false) (inserted : ApcInserted σ σ' apc) :
    ApcsQueued σ' (.inserted apc ((σ.apc apc).apcStateIndex.getD σ.apcStateIndex) (σ.apc apc).apcMode ::
      events) := by
  obtain ⟨record, calls, isIn, index, mode, _⟩ := inserted.calls
  have isNormal := inserted.isNormal
  have lists := inserted.lists
  generalize environment : (σ.apc apc).apcStateIndex.getD σ.apcStateIndex = e at index lists
  have self : σ'.apc apc = record := by rw [calls, update_self]
  have other : ∀ {x}, x ≠ apc → σ'.apc x = σ.apc x := by
    intro x different
    rw [calls, update_of_ne different]
  have nowhere : ∀ e m, apc ∉ σ.apcListHead e m := by
    intro e m inside
    exact absurd ((queued.listed inside).1.symm.trans absent) Bool.noConfusion
  have member : ∀ {x e' m'}, x ∈ σ'.apcListHead e' m' ↔
      x ∈ σ.apcListHead e' m' ∨ (x = apc ∧ e' = e ∧ m' = (σ.apc apc).apcMode) := by
    intro x e' m'
    rw [lists]
    split
    next here => rw [placed_perm.mem_iff, List.mem_cons, or_comm, and_iff_left here]
    next away => rw [iff_self_or]; exact fun wrong => absurd wrong.2 away
  constructor
  case kernel =>
    intro e'
    rw [lists, isNormal, queuedApcs]
    by_cases here : e' = e ∧ .kernelMode = (σ.apc apc).apcMode
    · obtain ⟨rfl, kernel⟩ := here
      rw [if_pos ⟨rfl, kernel⟩, if_pos ⟨rfl, kernel.symm⟩, placed, queued.kernel]
      split
      next normal =>
        rw [if_neg (not_not.mpr kernel.symm), stablePartition_snoc_late normal]
      next special => rw [stablePartition_snoc_early (Bool.eq_false_iff.mpr special)]
    · rw [if_neg here, if_neg (fun wrong => here ⟨wrong.1.symm, wrong.2.symm⟩), queued.kernel]
  case once =>
    intro e' m'
    rw [lists]
    split
    · exact placed_perm.nodup_iff.mpr (List.nodup_cons.mpr ⟨nowhere _ _, queued.once _ _⟩)
    · exact queued.once e' m'
  case listed =>
    intro x e' m' inside
    rcases member.mp inside with before | ⟨rfl, rfl, rfl⟩
    · have different : x ≠ apc := fun same => nowhere e' m' (same ▸ before)
      rw [other different]
      exact queued.listed before
    · rw [self]
      exact ⟨isIn, index, mode⟩
  case present =>
    intro x inside
    by_cases same : x = apc
    · exact ⟨e, (σ.apc apc).apcMode, member.mpr (Or.inr ⟨same, rfl, rfl⟩)⟩
    · rw [other same] at inside
      obtain ⟨e', m', before⟩ := queued.present inside
      exact ⟨e', m', member.mpr (Or.inl before)⟩
  case counts =>
    intro x
    have before := queued.counts x
    by_cases same : x = apc
    · subst same
      simp only [insertions, deliveries, before, self, isIn, absent, if_true, Bool.false_eq_true, if_false]
    · simp only [insertions, deliveries, before, other same, if_neg (Ne.symm same), Nat.add_zero]

end Lists

section Deliveries
variable {σ : ThreadApcs Apc Routine Arg}

def Held (σ : ThreadApcs Apc Routine Arg) : Prop :=
  ∀ apc, (σ.apcListHead σ.apcStateIndex .kernelMode).head? = some apc →
    σ.specialApcDisable ≠ 0 ∨
      σ.isNormal apc = true ∧ (σ.kernelApcDisable ≠ 0 ∨ σ.kernelApcInProgress = true)

structure Allowed (σ : ThreadApcs Apc Routine Arg) (apc : Apc) : Prop where
  head : (σ.apcListHead σ.apcStateIndex .kernelMode).head? = some apc
  enabled : σ.specialApcDisable = 0
  normal : σ.isNormal apc = true → σ.kernelApcDisable = 0 ∧ σ.kernelApcInProgress = false

inductive Passes (σ : ThreadApcs Apc Routine Arg) (deliveryMode : KProcessorMode) :
    ThreadApcs Apc Routine Arg × Option Apc → Prop where
  | returns : Held σ → Passes σ deliveryMode (σ, none)
  | user : Held σ → apc ∈ σ.apcListHead σ.apcStateIndex .userMode →
      Passes σ deliveryMode (takeUserApc σ apc, some apc)
  | kernel : Allowed σ apc → Passes σ deliveryMode (takeKernelApc σ deliveryMode apc, some apc)

theorem deliverUserApc_passes (held : Held σ) (deliveryMode : KProcessorMode) :
    Passes σ deliveryMode (deliverUserApc σ deliveryMode) := by
  rw [deliverUserApc]
  split
  next => exact .returns held
  next apc rest list =>
    split
    next => exact .user held (list ▸ List.mem_cons_self)
    next => exact .returns held

theorem deliverPass_passes (σ : ThreadApcs Apc Routine Arg) (deliveryMode : KProcessorMode) :
    Passes σ deliveryMode (deliverPass σ deliveryMode) := by
  rw [deliverPass]
  split
  next empty =>
    apply deliverUserApc_passes
    intro apc head
    rw [empty] at head
    cases head
  next apc rest list =>
    have first : (σ.apcListHead σ.apcStateIndex .kernelMode).head? = some apc := by
      rw [list]
      rfl
    split
    next guarded => exact deliverUserApc_passes (fun _ _ => Or.inl guarded) deliveryMode
    next enabled =>
      split
      next blocked =>
        apply deliverUserApc_passes
        intro x head
        obtain rfl := some.inj (head.symm.trans first)
        simp only [Bool.and_eq_true, Bool.or_eq_true, decide_eq_true_eq] at blocked
        exact Or.inr blocked
      next free =>
        apply Passes.kernel ⟨first, not_not.mp enabled, ?_⟩
        intro normal
        simpa [normal] using free

theorem ApcsQueued.pass (queued : ApcsQueued σ events) (deliveryMode : KProcessorMode) :
    let run := recordDelivery (deliverPass σ deliveryMode) events
    ApcsQueued run.thread run.events := by
  have passes := deliverPass_passes σ deliveryMode
  generalize deliverPass σ deliveryMode = result at passes
  cases passes with
  | returns => exact queued
  | user held member => exact queued.take member rfl rfl
  | kernel allowed => exact queued.take (List.mem_of_mem_head? allowed.head) rfl rfl

theorem ApcsQueued.step {σ : ApcRun Apc Routine Arg} (queued : ApcsQueued σ.thread σ.events)
    (stepped : apcStep σ action = some σ') : ApcsQueued σ'.thread σ'.events := by
  cases action with
  | insert apc a b =>
    obtain rfl := some.inj stepped
    by_cases refused : (!σ.thread.apcQueueable || (σ.thread.apc apc).inserted) = true
    · have same : ksInsertQueueApc σ.thread apc a b = (σ.thread, false) := by
        rw [ksInsertQueueApc, if_pos refused]
      rw [same]
      exact queued
    · simp only [Bool.or_eq_true, Bool.not_eq_true', not_or, Bool.not_eq_false, Bool.not_eq_true] at refused
      obtain ⟨thread, done, inserted⟩ := ksInsertQueueApc_fresh (a := a) (b := b) refused.1 refused.2
      rw [done, if_pos rfl]
      exact queued.insert refused.2 inserted
  | deliver deliveryMode =>
    obtain rfl := some.inj stepped
    exact ApcsQueued.pass (σ := { σ.thread with kernelApcPending := false }) (queued.congr rfl rfl) deliveryMode
  | kernelRoutineReturns captured =>
    obtain ⟨result, done, rfl⟩ := map_eq_some_iff.mp stepped
    rw [kernelRoutineReturns] at done
    split at done
    next deliveryMode apc before disable outer frames =>
      split at done
      next normal =>
        obtain rfl := some.inj done
        exact queued.congr rfl rfl
      next =>
        obtain rfl := some.inj done
        exact ApcsQueued.pass (σ := { σ.thread with frames := outer }) (queued.congr rfl rfl) deliveryMode
    next apc outer frames =>
      obtain rfl := some.inj done
      exact queued.congr rfl rfl
    next => cases done
  | normalRoutineReturns =>
    obtain ⟨result, done, rfl⟩ := map_eq_some_iff.mp stepped
    rw [normalRoutineReturns] at done
    split at done
    next deliveryMode apc outer frames =>
      obtain rfl := some.inj done
      exact ApcsQueued.pass (σ := { σ.thread with kernelApcInProgress := false, frames := outer })
        (queued.congr rfl rfl) deliveryMode
    next => cases done
  | enterCriticalRegion | leaveCriticalRegion | enterGuardedRegion | leaveGuardedRegion =>
    obtain rfl := some.inj stepped
    exact queued.congr rfl rfl

theorem ApcsOrdered.congr {σ' : ThreadApcs Apc Routine Arg} (ordered : ApcsOrdered σ events)
    (calls : σ'.apc = σ.apc) (lists : σ'.apcListHead = σ.apcListHead) (frames : σ'.frames = σ.frames)
    (inProgress : σ'.kernelApcInProgress = σ.kernelApcInProgress) : ApcsOrdered σ' events := by
  have isNormal : σ'.isNormal = σ.isNormal := by
    funext apc
    simp only [ThreadApcs.isNormal, calls]
  refine ⟨ordered.queued.congr calls lists, ?_, ?_⟩
  · rw [isNormal, frames]
    exact ordered.nested
  · rw [inProgress, frames]
    exact ordered.inProgress

theorem ApcsOrdered.pass (ordered : ApcsOrdered σ events) (deliveryMode : KProcessorMode) :
    let run := recordDelivery (deliverPass σ deliveryMode) events
    ApcsOrdered run.thread run.events := by
  have passes := deliverPass_passes σ deliveryMode
  generalize deliverPass σ deliveryMode = result at passes
  cases passes with
  | returns => exact ordered
  | @user apc held member =>
    have isNormal : (takeUserApc σ apc).isNormal = σ.isNormal := isNormal_update rfl
    refine ⟨ordered.queued.take member rfl rfl, ?_, ordered.inProgress⟩
    exact isNormal ▸ ordered.nested
  | @kernel apc allowed =>
    have isNormal : (takeKernelApc σ deliveryMode apc).isNormal = σ.isNormal := isNormal_update rfl
    refine ⟨ordered.queued.take (List.mem_of_mem_head? allowed.head) rfl rfl, ?_, ordered.inProgress⟩
    have nested : NestedApcs σ.isNormal (takeKernelApc σ deliveryMode apc).frames := by
      refine ⟨fun normal => ?_, ordered.nested⟩
      obtain ⟨enabled, free⟩ := allowed.normal normal
      exact ⟨enabled, ordered.inProgress.symm.trans free⟩
    exact isNormal ▸ nested

theorem ApcsOrdered.insert {σ : ApcRun Apc Routine Arg} (ordered : ApcsOrdered σ.thread σ.events)
    (stepped : apcStep σ (.insert apc a b) = some σ') : ApcsOrdered σ'.thread σ'.events := by
  obtain rfl := some.inj stepped
  by_cases refused : (!σ.thread.apcQueueable || (σ.thread.apc apc).inserted) = true
  · have same : ksInsertQueueApc σ.thread apc a b = (σ.thread, false) := by
      rw [ksInsertQueueApc, if_pos refused]
    rw [same]
    exact ordered
  · simp only [Bool.or_eq_true, Bool.not_eq_true', not_or, Bool.not_eq_false, Bool.not_eq_true] at refused
    obtain ⟨thread, done, inserted⟩ := ksInsertQueueApc_fresh (a := a) (b := b) refused.1 refused.2
    rw [done, if_pos rfl]
    refine ⟨ordered.queued.insert refused.2 inserted, ?_, ?_⟩
    · rw [inserted.isNormal, inserted.frames]
      exact ordered.nested
    · rw [inserted.inProgress, inserted.frames]
      exact ordered.inProgress

theorem ApcsOrdered.starts {captured : Captured Routine Arg} {σ : ApcRun Apc Routine Arg}
    (ordered : ApcsOrdered σ.thread σ.events)
    (returns : RoutineReturns σ (.kernelRoutineReturns captured))
    (frames : σ.thread.frames = .kernelRoutine deliveryMode apc before disable :: outer)
    (normal : captured.normalRoutine.isSome = true) :
    σ.thread.kernelApcDisable = 0 ∧ inNormalRoutine outer = false := by
  obtain ⟨same, special⟩ := returns deliveryMode apc before disable outer frames
  have nested := ordered.nested
  rw [frames] at nested
  cases isNormal : σ.thread.isNormal apc with
  | false =>
    rw [special isNormal] at normal
    cases normal
  | true =>
    obtain ⟨enabled, free⟩ := nested.1 isNormal
    exact ⟨same.trans enabled, free⟩

theorem ApcsOrdered.step {σ : ApcRun Apc Routine Arg} (ordered : ApcsOrdered σ.thread σ.events)
    (returns : RoutineReturns σ action) (stepped : apcStep σ action = some σ') :
    ApcsOrdered σ'.thread σ'.events := by
  cases action with
  | insert apc a b => exact ordered.insert stepped
  | deliver deliveryMode =>
    obtain rfl := some.inj stepped
    exact ApcsOrdered.pass (σ := { σ.thread with kernelApcPending := false })
      (ordered.congr rfl rfl rfl rfl) deliveryMode
  | kernelRoutineReturns captured =>
    obtain ⟨result, done, rfl⟩ := map_eq_some_iff.mp stepped
    rw [kernelRoutineReturns] at done
    split at done
    next deliveryMode apc before disable outer frames =>
      have nested := ordered.nested
      have inProgress := ordered.inProgress
      rw [frames] at nested inProgress
      split at done
      next normal =>
        obtain ⟨enabled, free⟩ := ordered.starts returns frames normal
        obtain rfl := some.inj done
        exact ⟨ordered.queued.congr rfl rfl, ⟨free, nested.2⟩, rfl⟩
      next =>
        obtain rfl := some.inj done
        exact ApcsOrdered.pass (σ := { σ.thread with frames := outer })
          ⟨ordered.queued.congr rfl rfl, nested.2, inProgress⟩ deliveryMode
    next apc outer frames =>
      have nested := ordered.nested
      have inProgress := ordered.inProgress
      rw [frames] at nested inProgress
      obtain rfl := some.inj done
      exact ⟨ordered.queued.congr rfl rfl, nested, inProgress⟩
    next => cases done
  | normalRoutineReturns =>
    obtain ⟨result, done, rfl⟩ := map_eq_some_iff.mp stepped
    rw [normalRoutineReturns] at done
    split at done
    next deliveryMode apc outer frames =>
      have nested := ordered.nested
      rw [frames] at nested
      obtain rfl := some.inj done
      exact ApcsOrdered.pass (σ := { σ.thread with kernelApcInProgress := false, frames := outer })
        ⟨ordered.queued.congr rfl rfl, nested.2, nested.1.symm⟩ deliveryMode
    next => cases done
  | enterCriticalRegion | leaveCriticalRegion | enterGuardedRegion | leaveGuardedRegion =>
    obtain rfl := some.inj stepped
    exact ordered.congr rfl rfl rfl rfl

end Deliveries

section Runs

/-- A thread as it is created, with calls that are initialized and in no list. -/
def initializedThread (apc : Apc → KApc Routine Arg) (apcStateIndex : ApcEnvironment) :
    ThreadApcs Apc Routine Arg :=
  ⟨fun x => { apc x with inserted := false }, fun _ _ => [], apcStateIndex, true, 0, 0, false, false, false, []⟩

/-- The order of the kernel lists, the normal routines, the special calls, and
the deliveries of each call. -/
structure ApcsCorrect (σ : ApcRun Apc Routine Arg) : Prop where
  order (environment) : σ.thread.apcListHead environment .kernelMode =
    ((queuedApcs environment .kernelMode σ.events).filter fun apc => !σ.thread.isNormal apc) ++
      (queuedApcs environment .kernelMode σ.events).filter σ.thread.isNormal
  starts {captured deliveryMode apc before disable frames} :
    RoutineReturns σ (.kernelRoutineReturns captured) →
    σ.thread.frames = .kernelRoutine deliveryMode apc before disable :: frames →
    captured.normalRoutine.isSome = true →
    σ.thread.kernelApcDisable = 0 ∧ σ.thread.kernelApcInProgress = false ∧
      inNormalRoutine σ.thread.frames = false
  inProgress : σ.thread.kernelApcInProgress = inNormalRoutine σ.thread.frames
  special {apc} (deliveryMode) : σ.thread.specialApcDisable = 0 →
    apc ∈ σ.thread.apcListHead σ.thread.apcStateIndex .kernelMode → σ.thread.isNormal apc = false →
    ∃ first, (deliverPass σ.thread deliveryMode).2 = some first ∧ σ.thread.isNormal first = false ∧
      (σ.thread.apcListHead σ.thread.apcStateIndex .kernelMode).head? = some first
  delivered (apc) : insertions apc σ.events =
    deliveries apc σ.events + if (σ.thread.apc apc).inserted then 1 else 0

theorem ApcsOrdered.correct {σ : ApcRun Apc Routine Arg} (ordered : ApcsOrdered σ.thread σ.events) :
    ApcsCorrect σ := by
  constructor
  case order => exact ordered.queued.kernel
  case inProgress => exact ordered.inProgress
  case delivered => exact ordered.queued.counts
  case starts =>
    intro captured deliveryMode apc before disable outer returns frames normal
    obtain ⟨enabled, free⟩ := ordered.starts returns frames normal
    have none : inNormalRoutine σ.thread.frames = false := by
      rw [frames]
      exact free
    exact ⟨enabled, ordered.inProgress.trans none, none⟩
  case special =>
    intro apc deliveryMode enabled member special
    have passes := deliverPass_passes σ.thread deliveryMode
    obtain ⟨first, head⟩ : ∃ first,
        (σ.thread.apcListHead σ.thread.apcStateIndex .kernelMode).head? = some first :=
      isSome_iff_exists.mp (by simpa using List.ne_nil_of_mem member)
    have firstSpecial : σ.thread.isNormal first = false := by
      by_contra normal
      rw [ordered.queued.kernel] at head member
      have all := stablePartition_head head (by simpa using normal) apc (mem_stablePartition.mp member)
      exact absurd (all.symm.trans special) Bool.noConfusion
    have free : ¬ Held σ.thread := by
      intro held
      rcases held first head with guarded | ⟨normal, _⟩
      · exact guarded enabled
      · exact absurd (normal.symm.trans firstSpecial) Bool.noConfusion
    generalize deliverPass σ.thread deliveryMode = result at passes
    refine ⟨first, ?_, firstSpecial, head⟩
    cases passes with
    | returns held | user held => exact absurd held free
    | kernel allowed => exact allowed.head.symm.trans head

/-- In every run whose kernel routines return as they should, every state
reached keeps the calls in order. -/
theorem apc_runs (apc : Apc → KApc Routine Arg) (apcStateIndex : ApcEnvironment)
    (run : Run (Guarded RoutineReturns fun σ action σ' => apcStep σ action = some σ')
      ⟨initializedThread apc apcStateIndex, []⟩ actions σ) : ApcsCorrect σ := by
  apply ApcsOrdered.correct
  apply run.invariant (P := fun σ => ApcsOrdered σ.thread σ.events)
    fun ordered stepped => ordered.step stepped.1 stepped.2
  refine ⟨⟨fun environment => rfl, fun environment mode => List.nodup_nil, fun member => ?_,
    fun inserted => ?_, fun apc => rfl⟩, trivial, rfl⟩
  · exact absurd member List.not_mem_nil
  · exact absurd inserted Bool.noConfusion

/-- Even calls are normal ones, odd calls special ones. -/
def sampleApc (n : Nat) : KApc Nat Unit :=
  ksInitializeApc (some .original) (if n % 2 = 0 then some n else none) .kernelMode () ()

theorem apc_runs_nested : ∃ σ, Run (Guarded RoutineReturns fun σ action σ' => apcStep σ action = some σ')
    ⟨initializedThread sampleApc .original, []⟩
    [.insert 0 () (), .insert 1 () (), .deliver .kernelMode, .insert 2 () (),
      .kernelRoutineReturns ⟨none, (), (), ()⟩, .kernelRoutineReturns ⟨some 0, (), (), ()⟩,
      .enterCriticalRegion, .deliver .kernelMode, .leaveCriticalRegion, .normalRoutineReturns] σ ∧
    ApcsCorrect σ := by
  suffices run : ∃ σ, Run (Guarded RoutineReturns fun σ action σ' => apcStep σ action = some σ')
      ⟨initializedThread sampleApc .original, []⟩
      [.insert 0 () (), .insert 1 () (), .deliver .kernelMode, .insert 2 () (),
        .kernelRoutineReturns ⟨none, (), (), ()⟩, .kernelRoutineReturns ⟨some 0, (), (), ()⟩,
        .enterCriticalRegion, .deliver .kernelMode, .leaveCriticalRegion, .normalRoutineReturns] σ by
    obtain ⟨σ, run⟩ := run
    exact ⟨σ, run, apc_runs _ _ run⟩
  refine ⟨_, .next ⟨trivial, rfl⟩ (.next ⟨trivial, rfl⟩ (.next ⟨trivial, rfl⟩ (.next ⟨trivial, rfl⟩
    (.next ⟨?_, rfl⟩ (.next ⟨?_, rfl⟩ (.next ⟨trivial, rfl⟩ (.next ⟨trivial, rfl⟩ (.next ⟨trivial, rfl⟩
    (.next ⟨trivial, rfl⟩ (.refl _))))))))))⟩
  · intro deliveryMode apc before disable frames same
    obtain ⟨_, rfl, _, rfl⟩ := ApcFrame.kernelRoutine.inj (List.cons.inj same).1
    exact ⟨rfl, fun _ => rfl⟩
  · intro deliveryMode apc before disable frames same
    obtain ⟨_, rfl, _, rfl⟩ := ApcFrame.kernelRoutine.inj (List.cons.inj same).1
    exact ⟨rfl, fun special => absurd special (by decide)⟩

/-- A kernel routine that enters a critical region has its normal routine run in
it, and one of a special call that supplies a normal routine lets the next normal
call run within the one in progress. -/
theorem normal_routine_disabled :
    (∃ σ σ', Run (fun σ action σ' => apcStep σ action = some σ')
      ⟨initializedThread sampleApc .original, []⟩
      [.insert 0 () (), .deliver .kernelMode, .enterCriticalRegion] σ ∧
      apcStep σ (.kernelRoutineReturns ⟨some 0, (), (), ()⟩) = some σ' ∧
      σ'.thread.frames.head? = some (.normalRoutine .kernelMode 0) ∧ σ'.thread.kernelApcDisable ≠ 0) ∧
    (∃ σ σ', Run (fun σ action σ' => apcStep σ action = some σ')
      ⟨initializedThread sampleApc .original, []⟩
      [.insert 0 () (), .deliver .kernelMode, .kernelRoutineReturns ⟨some 0, (), (), ()⟩, .insert 1 () (),
        .insert 2 () (), .deliver .kernelMode, .kernelRoutineReturns ⟨some 1, (), (), ()⟩,
        .normalRoutineReturns] σ ∧
      apcStep σ (.kernelRoutineReturns ⟨some 2, (), (), ()⟩) = some σ' ∧
      σ'.thread.frames = [.normalRoutine .kernelMode 2, .normalRoutine .kernelMode 0]) := by
  constructor
  · exact ⟨_, _, .next rfl (.next rfl (.next rfl (.refl _))), rfl, rfl, by decide⟩
  · exact ⟨_, _, .next rfl (.next rfl (.next rfl (.next rfl (.next rfl (.next rfl (.next rfl
      (.next rfl (.refl _)))))))), rfl, rfl⟩

end Runs
end VeaOS.Ks
