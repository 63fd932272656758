import VeaOS.Ks.ApcAttach
import VeaOS.Ks.ApcRuns

/-! Attaching leaves the saved heads without a list: the calls, and an empty list
itself, still name the heads they were linked to. Until then the lists in memory
are those of the calls' own runs. -/
namespace VeaOS.Ks.ApcLinks
open Foundation RingLinks Transition ApcNode List ApcLinks
variable {Apc Routine Arg Process : Type} [DecidableEq Apc] [DecidableEq Process]

/-- The state of an environment while the thread is not attached. -/
def environmentSlot : ApcEnvironment → KApcSlot
  | .original => .apcState
  | .attached => .savedApcState

theorem environmentSlot_inj {e e' : ApcEnvironment} (same : environmentSlot e = environmentSlot e') : e = e' := by
  cases e <;> cases e' <;> first | rfl | cases same

section Lists
variable {L : RingLinks (ApcNode Apc)} {lists : ApcEnvironment → KProcessorMode → List Apc}

/-- The memory holds these lists, and no call is on two of them. -/
structure Linked (L : RingLinks (ApcNode Apc)) (lists : ApcEnvironment → KProcessorMode → List Apc) : Prop where
  ring (e m) : Ring L (.apcListHead (environmentSlot e) m) ((lists e m).map .apcListEntry)
  apart {apc e m e' m'} : apc ∈ lists e m → apc ∈ lists e' m' → e = e' ∧ m = m'

def changeList (lists : ApcEnvironment → KProcessorMode → List Apc) (e : ApcEnvironment) (m : KProcessorMode)
    (list : List Apc) : ApcEnvironment → KProcessorMode → List Apc :=
  fun e' m' => if e' = e ∧ m' = m then list else lists e' m'

omit [DecidableEq Apc] in
theorem Linked.outside (linked : Linked L lists) (other : ¬ (e' = e ∧ m' = m)) :
    ∀ node ∈ apcListHead (environmentSlot e') m' :: (lists e' m').map .apcListEntry,
      node ∉ apcListHead (environmentSlot e) m :: (lists e m).map .apcListEntry := by
  intro node member inside
  rcases mem_cons.mp member with rfl | member
  · rcases mem_cons.mp inside with same | inside
    · obtain ⟨slot, mode⟩ := apcListHead.inj same
      exact other ⟨environmentSlot_inj slot, mode⟩
    · simp at inside
  · obtain ⟨apc, there, rfl⟩ := mem_map.mp member
    rcases mem_cons.mp inside with same | inside
    · cases same
    · obtain ⟨apc', here, same⟩ := mem_map.mp inside
      obtain rfl := apcListEntry.inj same
      exact other (linked.apart there here)

omit [DecidableEq Apc] in
theorem Linked.change {L' : RingLinks (ApcNode Apc)} (linked : Linked L lists) {list : List Apc}
    (here : Ring L' (.apcListHead (environmentSlot e) m) (list.map .apcListEntry))
    (others : ∀ e' m', ¬ (e' = e ∧ m' = m) →
      Ring L' (.apcListHead (environmentSlot e') m') ((lists e' m').map .apcListEntry))
    (members : ∀ apc ∈ list, apc ∈ lists e m ∨ ∀ e' m', apc ∉ lists e' m') :
    Linked L' (changeList lists e m list) := by
  have inside : ∀ {apc e' m'}, apc ∈ changeList lists e m list e' m' →
      apc ∈ lists e' m' ∨ (e' = e ∧ m' = m) ∧ ∀ e' m', apc ∉ lists e' m' := by
    intro apc e' m' member
    by_cases same : e' = e ∧ m' = m
    · rw [changeList, if_pos same] at member
      obtain ⟨rfl, rfl⟩ := same
      exact (members apc member).imp_right fun fresh => ⟨⟨rfl, rfl⟩, fresh⟩
    · rw [changeList, if_neg same] at member
      exact .inl member
  constructor
  · intro e' m'
    by_cases same : e' = e ∧ m' = m
    · rw [changeList, if_pos same]
      obtain ⟨rfl, rfl⟩ := same
      exact here
    · rw [changeList, if_neg same]
      exact others e' m' same
  · intro apc e₁ m₁ e₂ m₂ first second
    rcases inside first with old | ⟨⟨rfl, rfl⟩, fresh⟩
    · rcases inside second with old' | ⟨-, fresh⟩
      · exact linked.apart old old'
      · exact absurd old (fresh _ _)
    · rcases inside second with old' | ⟨⟨rfl, rfl⟩, -⟩
      · exact absurd old' (fresh _ _)
      · exact ⟨rfl, rfl⟩

omit [DecidableEq Apc] in
theorem not_mem_nodes (absent : ∀ e m, apc ∉ lists e m) (e : ApcEnvironment) (m : KProcessorMode) :
    apcListEntry apc ∉
      apcListHead (environmentSlot e) m :: (lists e m).map .apcListEntry := by
  simpa using absent e m

theorem Linked.insertTail (linked : Linked L lists) (absent : ∀ e m, apc ∉ lists e m) (e : ApcEnvironment)
    (m : KProcessorMode) :
    Linked (L.insertTailList (.apcListHead (environmentSlot e) m) (.apcListEntry apc))
      (changeList lists e m (lists e m ++ [apc])) := by
  refine linked.change ?_ (fun e' m' other => ?_) fun x member => ?_
  · simpa using (linked.ring e m).insertTail (not_mem_nodes absent e m)
  · refine (linked.ring e m).insertTail_apart (linked.ring e' m') fun node inside => ?_
    exact ⟨linked.outside other node inside, fun same => not_mem_nodes absent e' m' (same ▸ inside)⟩
  · rcases mem_append.mp member with old | new
    · exact .inl old
    · exact .inr (mem_singleton.mp new ▸ absent)

theorem Linked.insertHead (linked : Linked L lists) (absent : ∀ e m, apc ∉ lists e m) (e : ApcEnvironment)
    (m : KProcessorMode) (split : lists e m = front ++ back) :
    Linked (L.insertHeadList ((apcListHead (environmentSlot e) m ::
        front.map apcListEntry).getLast (by simp)) (.apcListEntry apc))
      (changeList lists e m (front ++ apc :: back)) := by
  have ring := linked.ring e m
  have fresh := not_mem_nodes absent e m
  refine linked.change ?_ (fun e' m' other => ?_) fun x member => ?_
  · rw [split, map_append] at ring fresh
    simpa using ring.insertHead_after fresh
  · refine ring.insertHead_apart ?_ (linked.ring e' m') fun node inside => ?_
    · refine Sublist.mem (getLast_mem _) ?_
      rw [split, map_append]
      exact (sublist_append_left _ _).cons_cons _
    · exact ⟨linked.outside other node inside, fun same => not_mem_nodes absent e' m' (same ▸ inside)⟩
  · rw [mem_append, mem_cons] at member
    rw [split, mem_append]
    rcases member with inFront | rfl | inBack
    · exact .inl (.inl inFront)
    · exact .inr absent
    · exact .inl (.inr inBack)

theorem Linked.remove (linked : Linked L lists) (first : lists e m = apc :: rest) :
    Linked (L.removeEntryList (.apcListEntry apc)) (changeList lists e m ((lists e m).erase apc)) := by
  have ring := linked.ring e m
  refine linked.change ?_ (fun e' m' other => ?_) fun x member => .inl (mem_of_mem_erase member)
  · rw [first, map_cons] at ring
    rw [first, erase_cons_head]
    rw [← nil_append (_ :: _)] at ring
    exact ring.remove
  · exact ring.remove_apart (by simp [first]) (linked.ring e' m') (linked.outside other)

end Lists

section Scan
variable {σ : ApcThread Apc Routine Arg Process}

omit [DecidableEq Process] in
theorem scanSpecial_spec {list : List Apc} {slot : KApcSlot} {mode : KProcessorMode}
    (ring : Ring σ.links (.apcListHead slot mode) (list.map .apcListEntry)) (front back : List Apc)
    (split : list = front ++ back)
    (found : scanSpecial σ (.apcListHead slot mode) fuel ((apcListHead slot mode ::
      front.map apcListEntry).getLast (by simp)) = some nextEntry) :
    nextEntry = (apcListHead slot mode ::
      (front.rdropWhile σ.isNormal).map apcListEntry).getLast (by simp) := by
  induction front using reverseRecOn generalizing fuel back with
  | nil =>
    cases fuel with
    | zero => cases found
    | succ fuel =>
      simp only [map_nil, getLast_singleton, scanSpecial, if_true, Option.some.injEq] at found
      exact found.symm
  | append_singleton front last ih =>
    cases fuel with
    | zero => cases found
    | succ fuel =>
      have at_ : (apcListHead slot mode :: (front ++ [last]).map apcListEntry).getLast
          (by simp) = .apcListEntry last := by simp
      rw [at_] at found
      simp only [scanSpecial, reduceCtorEq, if_false] at found
      rw [rdropWhile_concat]
      by_cases normal : σ.isNormal last = true
      · rw [if_pos normal] at found ⊢
        have before : σ.links.blink (.apcListEntry last) =
            (apcListHead slot mode :: front.map apcListEntry).getLast (by simp) := by
          rw [split, append_assoc, map_append, singleton_append, map_cons] at ring
          exact (segment_append.mp ring.linked).1.blink_last
        rw [before] at found
        exact ih (last :: back) (by simp [split]) found
      · rw [if_neg normal] at found ⊢
        rw [at_]
        exact (Option.some.inj found).symm

end Scan

/-- The thread with lists that are just lists. -/
def ApcThread.withLists (σ : ApcThread Apc Routine Arg Process)
    (lists : ApcEnvironment → KProcessorMode → List Apc) : ThreadApcs Apc Routine Arg where
  apc := σ.apc
  apcListHead := lists
  apcStateIndex := σ.apcStateIndex
  apcQueueable := σ.apcQueueable
  kernelApcDisable := σ.kernelApcDisable
  specialApcDisable := σ.specialApcDisable
  kernelApcInProgress := (σ.state .apcState).kernelApcInProgress
  kernelApcPending := (σ.state .apcState).kernelApcPending
  userApcPending := (σ.state .apcState).userApcPending
  frames := σ.frames

/-- The thread is not attached, and its environments have these lists in memory. -/
structure Unattached (σ : ApcThread Apc Routine Arg Process)
    (lists : ApcEnvironment → KProcessorMode → List Apc) : Prop where
  linked : Linked σ.links lists
  pointer : σ.apcStatePointer = environmentSlot
  original : σ.apcStateIndex = .original
  unattached : σ.attachedFrom = none

namespace Unattached
variable {σ σ' : ApcThread Apc Routine Arg Process} {lists : ApcEnvironment → KProcessorMode → List Apc}

omit [DecidableEq Process] in
theorem placeApc (held : Unattached σ lists) (absent : ∀ e m, apc ∉ lists e m) (environment : ApcEnvironment)
    (mode : KProcessorMode) (done : placeApc fuel σ (environmentSlot environment) mode apc = some σ') :
    ∃ lists', Unattached σ' lists' ∧
      Ks.placeApc (σ.withLists lists) environment mode apc = σ'.withLists lists' := by
  have same : (σ.withLists lists).isNormal = σ.isNormal := rfl
  unfold ApcLinks.placeApc at done
  unfold Ks.placeApc
  dsimp only at done ⊢
  rw [same]
  by_cases normal : σ.isNormal apc = true
  · rw [if_pos normal] at done ⊢
    by_cases user : mode ≠ .kernelMode
    · rw [if_pos user] at done ⊢
      cases done
      have linked := held.linked.insertHead absent environment mode (nil_append _).symm
      exact ⟨_, { held with linked := linked }, rfl⟩
    · rw [if_neg user] at done ⊢
      cases done
      exact ⟨_, { held with linked := held.linked.insertTail absent environment mode }, rfl⟩
  · rw [if_neg normal] at done ⊢
    obtain ⟨nextEntry, found, rfl⟩ := Option.map_eq_some_iff.mp done
    have ring := held.linked.ring environment mode
    rw [ring.linked.blink_last] at found
    obtain rfl := scanSpecial_spec ring _ [] (by simp) found
    have linked := held.linked.insertHead absent environment mode
      (rdropWhile_append_rtakeWhile (p := σ.isNormal)).symm
    exact ⟨_, { held with linked := linked }, rfl⟩

omit [DecidableEq Process] in
theorem kiInsertQueueApc (held : Unattached σ lists) (absent : ∀ e m, apc ∉ lists e m)
    (done : kiInsertQueueApc fuel σ apc = some σ') :
    ∃ lists', Unattached σ' lists' ∧
      Ks.kiInsertQueueApc (σ.withLists lists) apc = σ'.withLists lists' := by
  obtain ⟨σ₁, placed, rfl⟩ := Option.map_eq_some_iff.mp done
  have slot := congrFun held.pointer ((σ.apc apc).apcStateIndex.getD σ.apcStateIndex)
  rw [slot] at placed
  obtain ⟨lists', held', same⟩ := Unattached.placeApc
    (σ := { σ with apc := Function.update σ.apc apc { σ.apc apc with
      apcStateIndex := some ((σ.apc apc).apcStateIndex.getD σ.apcStateIndex) } })
    { held with } absent _ _ placed
  let pend (τ : ThreadApcs Apc Routine Arg) : ThreadApcs Apc Routine Arg :=
    if τ.apcStateIndex = (σ.apc apc).apcStateIndex.getD σ.apcStateIndex ∧ (σ.apc apc).apcMode = .kernelMode then
      { τ with kernelApcPending := true } else τ
  refine ⟨lists', ?_, (congrArg pend same).trans ?_⟩
  · split
    · exact { held' with }
    · exact held'
  · simp only [pend, ApcThread.withLists]
    split
    · rfl
    · rfl

omit [DecidableEq Process] in
theorem insert (held : Unattached σ lists) (queued : ApcsQueued (σ.withLists lists) events)
    (done : ksInsertQueueApc fuel σ apc a b = some (σ', inserted)) :
    ∃ lists', Unattached σ' lists' ∧
      Ks.ksInsertQueueApc (σ.withLists lists) apc a b = (σ'.withLists lists', inserted) := by
  unfold ksInsertQueueApc at done
  unfold Ks.ksInsertQueueApc
  by_cases refused : (!σ.apcQueueable || (σ.apc apc).inserted) = true
  · rw [if_pos refused] at done
    cases done
    exact ⟨lists, held, if_pos refused⟩
  · rw [if_neg refused] at done
    obtain ⟨σ₁, placed, same⟩ := Option.map_eq_some_iff.mp done
    cases same
    have absent : ∀ e m, apc ∉ lists e m := by
      intro e m member
      have inserted : (σ.apc apc).inserted = true := (queued.listed member).1
      simp [inserted] at refused
    obtain ⟨lists', held', same⟩ := Unattached.kiInsertQueueApc
      (σ := { σ with apc := Function.update σ.apc apc { σ.apc apc with
        systemArgument1 := a, systemArgument2 := b, inserted := true } }) { held with } absent placed
    exact ⟨lists', held', (if_neg refused).trans (congrArg (·, true) same)⟩

omit [DecidableEq Process] in
theorem front (held : Unattached σ lists) (mode : KProcessorMode) :
    (lists σ.apcStateIndex mode = [] ∧ σ.links.isListEmpty (.apcListHead σ.slot mode) = true) ∨
    ∃ apc rest, lists σ.apcStateIndex mode = apc :: rest ∧
      σ.links.isListEmpty (.apcListHead σ.slot mode) = false ∧
      σ.links.flink (.apcListHead σ.slot mode) = .apcListEntry apc := by
  have ring := held.linked.ring σ.apcStateIndex mode
  rw [← held.pointer] at ring
  cases first : lists σ.apcStateIndex mode with
  | nil =>
    rw [first] at ring
    exact .inl ⟨rfl, ring.isListEmpty⟩
  | cons apc rest =>
    rw [first] at ring
    exact .inr ⟨apc, rest, rfl, ring.isListEmpty, ring.flink_head⟩

omit [DecidableEq Process] in
theorem takeUserApc (held : Unattached σ lists) (first : lists σ.apcStateIndex .userMode = apc :: rest) :
    ∃ lists', Unattached (takeUserApc σ apc) lists' ∧
      Ks.takeUserApc (σ.withLists lists) apc = (takeUserApc σ apc).withLists lists' :=
  ⟨_, { held with linked := held.linked.remove first }, rfl⟩

omit [DecidableEq Process] in
theorem takeKernelApc (held : Unattached σ lists) (first : lists σ.apcStateIndex .kernelMode = apc :: rest)
    (deliveryMode : KProcessorMode) :
    ∃ lists', Unattached (takeKernelApc σ deliveryMode apc) lists' ∧
      Ks.takeKernelApc (σ.withLists lists) deliveryMode apc =
        (takeKernelApc σ deliveryMode apc).withLists lists' :=
  ⟨_, { held with linked := held.linked.remove first }, rfl⟩

omit [DecidableEq Process] in
theorem deliverUserApc (held : Unattached σ lists) (deliveryMode : KProcessorMode)
    (done : deliverUserApc σ deliveryMode = some (σ', taken)) :
    ∃ lists', Unattached σ' lists' ∧
      Ks.deliverUserApc (σ.withLists lists) deliveryMode = (σ'.withLists lists', taken) := by
  unfold ApcLinks.deliverUserApc at done
  have lists_eq : (σ.withLists lists).apcListHead (σ.withLists lists).apcStateIndex = lists σ.apcStateIndex := rfl
  unfold Ks.deliverUserApc
  rw [lists_eq]
  rcases held.front .userMode with ⟨empty, none⟩ | ⟨apc, rest, first, some, next⟩
  · rw [if_neg (by simp [none])] at done
    cases done
    rw [empty]
    exact ⟨lists, held, rfl⟩
  · rw [first]
    by_cases wanted : deliveryMode = .userMode ∧ (σ.state .apcState).userApcPending
    · rw [if_pos ⟨wanted.1, by simp [some], wanted.2⟩, next] at done
      cases done
      obtain ⟨lists', held', same⟩ := held.takeUserApc first
      exact ⟨lists', held', (if_pos wanted).trans (congrArg (·, _) same)⟩
    · rw [if_neg (fun all => wanted ⟨all.1, all.2.2⟩)] at done
      cases done
      exact ⟨lists, held, if_neg wanted⟩

omit [DecidableEq Process] in
theorem deliverPass (held : Unattached σ lists) (deliveryMode : KProcessorMode)
    (done : deliverPass σ deliveryMode = some (σ', taken)) :
    ∃ lists', Unattached σ' lists' ∧
      Ks.deliverPass (σ.withLists lists) deliveryMode = (σ'.withLists lists', taken) := by
  unfold ApcLinks.deliverPass at done
  have lists_eq : (σ.withLists lists).apcListHead (σ.withLists lists).apcStateIndex = lists σ.apcStateIndex := rfl
  unfold Ks.deliverPass
  rw [lists_eq]
  rcases held.front .kernelMode with ⟨empty, none⟩ | ⟨apc, rest, first, some, next⟩
  · rw [if_pos (.inl none)] at done
    rw [empty]
    exact held.deliverUserApc deliveryMode done
  · rw [first]
    by_cases guarded : σ.specialApcDisable ≠ 0
    · rw [if_pos (.inr guarded)] at done
      obtain ⟨lists', held', same⟩ := held.deliverUserApc deliveryMode done
      exact ⟨lists', held', (if_pos guarded).trans same⟩
    · rw [if_neg (by simp [some, not_not.mp guarded]), next] at done
      dsimp only at done
      by_cases blocked : (σ.isNormal apc && (decide (σ.kernelApcDisable ≠ 0) ||
          (σ.state .apcState).kernelApcInProgress)) = true
      · rw [if_pos blocked] at done
        obtain ⟨lists', held', same⟩ := held.deliverUserApc deliveryMode done
        exact ⟨lists', held', (if_neg guarded).trans ((if_pos blocked).trans same)⟩
      · rw [if_neg blocked] at done
        cases done
        obtain ⟨lists', held', same⟩ := held.takeKernelApc first deliveryMode
        exact ⟨lists', held', (if_neg guarded).trans ((if_neg blocked).trans (congrArg (·, _) same))⟩

omit [DecidableEq Process] in
/-- Every step on the lists in memory is one of the thread with plain lists. -/
theorem call (held : Unattached σ lists) (queued : ApcsQueued (σ.withLists lists) events)
    (done : callStep fuel σ action = some (σ', taken)) :
    ∃ lists' events', Unattached σ' lists' ∧
      apcStep ⟨σ.withLists lists, events⟩ action = some ⟨σ'.withLists lists', events'⟩ := by
  cases action with
  | insert apc a b =>
    obtain ⟨⟨σ₁, inserted⟩, placed, same⟩ := Option.map_eq_some_iff.mp done
    cases same
    obtain ⟨lists', held', same⟩ := held.insert queued placed
    refine ⟨lists', if inserted then .inserted apc ((σ.apc apc).apcStateIndex.getD σ.apcStateIndex)
      (σ.apc apc).apcMode :: events else events, held', ?_⟩
    simp only [apcStep, same]
    rfl
  | deliver deliveryMode =>
    obtain ⟨lists', held', same⟩ := Unattached.deliverPass
      (σ := σ.setState .apcState { σ.state .apcState with kernelApcPending := false }) { held with }
      deliveryMode done
    exact ⟨lists', _, held', congrArg (fun result => some (recordDelivery result events)) same⟩
  | kernelRoutineReturns captured =>
    change kernelRoutineReturns σ captured = _ at done
    unfold kernelRoutineReturns at done
    have both : (σ.withLists lists).frames = σ.frames := rfl
    simp only [apcStep, Ks.kernelRoutineReturns, both]
    cases frames : σ.frames with
    | nil => simp [frames] at done
    | cons frame outer =>
      rw [frames] at done
      cases frame with
      | normalRoutine deliveryMode apc => cases done
      | userKernelRoutine apc =>
        cases done
        exact ⟨lists, _, { held with }, rfl⟩
      | kernelRoutine deliveryMode apc before disable =>
        dsimp only at done ⊢
        by_cases normal : captured.normalRoutine.isSome = true
        · rw [if_pos normal] at done ⊢
          cases done
          exact ⟨lists, _, { held with }, rfl⟩
        · rw [if_neg normal] at done ⊢
          obtain ⟨lists', held', same⟩ := Unattached.deliverPass (σ := { σ with frames := outer })
            { held with } deliveryMode done
          exact ⟨lists', _, held', congrArg (fun result => some (recordDelivery result events)) same⟩
  | normalRoutineReturns =>
    change normalRoutineReturns σ = _ at done
    unfold normalRoutineReturns at done
    have both : (σ.withLists lists).frames = σ.frames := rfl
    simp only [apcStep, Ks.normalRoutineReturns, both]
    cases frames : σ.frames with
    | nil => simp [frames] at done
    | cons frame outer =>
      rw [frames] at done
      cases frame with
      | userKernelRoutine | kernelRoutine => cases done
      | normalRoutine deliveryMode apc =>
        obtain ⟨lists', held', same⟩ := Unattached.deliverPass
          (σ := { σ.setState .apcState { σ.state .apcState with kernelApcInProgress := false } with
            frames := outer }) { held with } deliveryMode done
        exact ⟨lists', _, held', congrArg (fun result => some (recordDelivery result events)) same⟩
  | enterCriticalRegion | leaveCriticalRegion | enterGuardedRegion | leaveGuardedRegion =>
    cases done
    exact ⟨lists, events, { held with }, rfl⟩

/-- The environment whose lists are in a slot of a thread that is not attached. -/
def slotEnvironment : KApcSlot → ApcEnvironment
  | .apcState => .original
  | .savedApcState => .attached

omit [DecidableEq Process] in
theorem sound (held : Unattached σ lists) (queued : ApcsQueued (σ.withLists lists) events) :
    ∃ lists', ListsSound σ lists' := by
  have there : ∀ slot, environmentSlot (slotEnvironment slot) = slot := fun slot => by cases slot <;> rfl
  have back : ∀ e, slotEnvironment (environmentSlot e) = e := fun e => by cases e <;> rfl
  refine ⟨fun slot mode => lists (slotEnvironment slot) mode, fun slot mode => ?_, fun apc => ⟨fun inserted => ?_, ?_⟩,
    fun first second => ?_⟩
  · have ring := held.linked.ring (slotEnvironment slot) mode
    rwa [there] at ring
  · obtain ⟨e, m, member⟩ := queued.present inserted
    exact ⟨environmentSlot e, m, by rwa [back]⟩
  · rintro ⟨slot, mode, member⟩
    exact (queued.listed member).1
  · obtain ⟨same, mode⟩ := held.linked.apart first second
    exact ⟨(there _).symm.trans ((congrArg environmentSlot same).trans (there _)), mode⟩

end Unattached

theorem attached_not_sound {σ σ' : ApcThread Apc Routine Arg Process} {process : Process}
    (attaches : Attaches σ (.attach process dpcRoutineRunning)) (sound : ListsSound σ lists)
    (done : ptAttachProcess σ process dpcRoutineRunning = some σ') : ¬ ∃ lists, ListsSound σ' lists := by
  obtain ⟨other, original, dpc⟩ := attaches
  rw [ptAttachProcess, if_neg other, if_neg (by simp [original, dpc])] at done
  cases done
  rintro ⟨lists', after⟩
  have before := sound.circular .apcState .kernelMode
  have back := (after.circular .savedApcState .kernelMode).blink_flink
  have first := before.flink_head
  have home := before.blink_flink
  simp only [initializeListHead, setFlink, setBlink, copyHeads] at back
  cases held : lists .apcState .kernelMode with
  | nil =>
    simp only [held, map_nil, nil_append, head_cons] at first
    simp [first] at back
  | cons apc rest =>
    simp only [held, map_cons, cons_append, head_cons] at first
    rw [first] at home
    simp [first, home] at back

theorem stepSound_iff {σ σ' : ApcThread Apc Routine Arg Process} {lists : ApcEnvironment → KProcessorMode → List Apc}
    {action : AttachAction Apc Routine Arg Process} (held : Unattached σ lists)
    (queued : ApcsQueued (σ.withLists lists) events) (done : attachStep fuel σ action = some σ') :
    (StepSound σ action σ' ↔ ¬ Attaches σ action) ∧
      (¬ Attaches σ action → ∃ lists' events', Unattached σ' lists' ∧
        ApcsQueued (σ'.withLists lists') events') := by
  cases action with
  | calls action =>
    obtain ⟨⟨σ₁, taken⟩, called, rfl⟩ := Option.map_eq_some_iff.mp done
    obtain ⟨lists', events', held', stepped⟩ := held.call queued called
    have queued' := ApcsQueued.step (σ := ⟨σ.withLists lists, events⟩) queued stepped
    exact ⟨iff_of_true ⟨held'.sound queued', fun isDetach => by cases isDetach⟩ id, fun _ => ⟨lists', events', held', queued'⟩⟩
  | detach =>
    have same : ptDetachProcess σ = σ := if_pos held.original
    cases done
    rw [same]
    refine ⟨iff_of_true ⟨held.sound queued, fun _ L mode list from_ => ?_⟩ id, fun _ => ⟨lists, events, held, queued⟩⟩
    rw [held.unattached] at from_
    cases from_
  | attach process dpcRoutineRunning =>
    obtain ⟨slots, sound⟩ := held.sound queued
    change ptAttachProcess σ process dpcRoutineRunning = some σ' at done
    by_cases attaches : Attaches σ (.attach process dpcRoutineRunning)
    · refine ⟨iff_of_false (fun kept => ?_) (not_not.mpr attaches), fun away => absurd attaches away⟩
      exact attached_not_sound attaches sound done kept.1
    · by_cases own : (σ.state .apcState).process = some process
      · rw [ptAttachProcess, if_pos own] at done
        cases done
        exact ⟨iff_of_true ⟨⟨slots, sound⟩, fun isDetach => by cases isDetach⟩ attaches, fun _ => ⟨lists, events, held, queued⟩⟩
      · rw [ptAttachProcess, if_neg own, if_pos] at done
        · cases done
        · by_contra away
          simp only [ne_eq, not_or, not_not, Bool.not_eq_true] at away
          exact attaches ⟨own, away⟩

omit [DecidableEq Process] in
theorem initialized (apc : Apc → KApc Routine Arg) (process : Option Process) :
    Unattached (initializedThread apc process) (fun _ _ => []) ∧
      ApcsQueued ((initializedThread apc process).withLists fun _ _ => []) [] := by
  refine ⟨⟨⟨fun e m => ⟨nodup_singleton _, rfl, rfl⟩, fun member => ?_⟩, ?_, rfl, rfl⟩,
    fun _ => rfl, fun _ _ => nodup_nil, fun member => ?_, fun inserted => ?_, fun _ => rfl⟩
  · cases member
  · funext e
    cases e <;> rfl
  · cases member
  · cases inserted

/-- In every run from a new thread, the lists are sound after each step and each
detach restores them exactly if no step of the run attaches the thread. -/
theorem apc_lists_attach (apc : Apc → KApc Routine Arg) (process : Option Process) (fuel : Nat)
    (actions : List (AttachAction Apc Routine Arg Process)) :
    (∃ lists, ListsSound (initializedThread apc process) lists) ∧
    (Along (fun σ action => ∀ σ', attachStep fuel σ action = some σ' → StepSound σ action σ')
        (attachStep fuel) (initializedThread apc process) actions ↔
      Along (fun σ action => ¬ Attaches σ action) (attachStep fuel) (initializedThread apc process) actions) := by
  have start := initialized apc process
  refine ⟨start.1.sound start.2, ?_⟩
  refine along_good_iff (P := fun σ => ∃ lists events, Unattached σ lists ∧ ApcsQueued (σ.withLists lists) events)
    ?_ ?_ ?_ ⟨_, _, start⟩
  · rintro σ action σ' ⟨lists, events, held, queued⟩ done
    exact (stepSound_iff held queued done).1
  · rintro σ action ⟨lists, events, held, queued⟩ stopped
    cases action with
    | calls action => exact id
    | detach => exact id
    | attach process dpcRoutineRunning =>
      rintro ⟨other, original, dpc⟩
      change ptAttachProcess σ process dpcRoutineRunning = none at stopped
      rw [ptAttachProcess, if_neg other, if_neg (by simp [original, dpc])] at stopped
      cases stopped
  · rintro σ action σ' ⟨lists, events, held, queued⟩ away done
    exact (stepSound_iff held queued done).2 away

/-- A normal kernel call for the environment that the thread is in. -/
def anywhereApc : KApc Nat Unit := ksInitializeApc none (some 0) .kernelMode () ()

/-- A call queued to a thread that has attached is on no list after the detach,
and the saved lists were no lists in between. -/
theorem apc_lost_by_detach :
    (∃ σ, exec (attachStep 1) (initializedThread (fun _ : Unit => anywhereApc) (some 0))
      [.attach 1 false] = some σ ∧ ¬ ∃ lists, ListsSound σ lists) ∧
    ∃ σ, exec (attachStep 1) (initializedThread (fun _ : Unit => anywhereApc) (some 0))
      [.attach 1 false, .calls (.insert () () ()), .detach] = some σ ∧ (σ.apc ()).inserted = true ∧
      ∀ slot mode (list : List Unit), Ring σ.links (.apcListHead slot mode) (list.map ApcNode.apcListEntry) → () ∉ list := by
  constructor
  · refine ⟨_, rfl, ?_⟩
    have start := initialized (fun _ : Unit => anywhereApc) (some 0)
    obtain ⟨lists, sound⟩ := start.1.sound start.2
    have attaches : Attaches (initializedThread (fun _ : Unit => anywhereApc) (some 0)) (.attach 1 false) :=
      ⟨by simp [initializedThread], rfl, rfl⟩
    exact attached_not_sound attaches sound rfl
  · refine ⟨_, rfl, rfl, fun slot mode list ring => ?_⟩
    cases list with
    | nil => simp
    | cons apc rest =>
      have first := ring.flink_head
      cases slot <;> cases mode <;> cases first

end VeaOS.Ks.ApcLinks
