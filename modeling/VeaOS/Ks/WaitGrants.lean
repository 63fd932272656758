import Mathlib.Data.List.Count
import Mathlib.Logic.Relation
import VeaOS.Ks.DispatcherLists

/-! What granting a wait does: the signals it consumes, the mutants it hands
over, and the wait blocks that leave the lists. -/
namespace VeaOS.Ks
open Foundation Dispatcher Function List
variable {Thread Object : Type}

section Blocks

end Blocks

variable [DecidableEq Thread] [DecidableEq Object]

/-- The signals of these objects are taken, one for each time an object is listed. -/
def Dispatcher.consume (s : Dispatcher Thread Object) (objects : List Object) : Dispatcher Thread Object :=
  { s with
    header := fun object =>
      if s.isNotification object then s.header object
      else { s.header object with signalState := s.signalState object - objects.count object } }

omit [DecidableEq Thread] in
theorem foldl_consumeSignal (s : Dispatcher Thread Object) (objects : List Object) :
    objects.foldl consumeSignal s = s.consume objects := by
  induction objects generalizing s with
  | nil => simp [consume, signalState]
  | cons o rest ih =>
    rw [foldl_cons, ih]
    unfold consumeSignal
    by_cases notification : s.isNotification o
    · rw [if_pos notification]
      simp only [consume, mk.injEq, and_true]
      funext x
      by_cases same : x = o
      · simp [same, notification]
      · simp [Ne.symm same]
    · rw [if_neg notification]
      simp only [consume, setSignal, mk.injEq, and_true]
      funext x
      by_cases same : x = o
      · subst same
        have kind : ¬ ksiIsNotificationObject (s.header x).type := notification
        simp [isNotification, signalState, kind]
        omega
      · simp [isNotification, signalState, same, Ne.symm same]

/-- The objects whose signals a grant consumes. -/
def satisfying (objects : List Object) (signaledIndex : Nat) : KWaitType → List Object
  | .waitAny => objects[signaledIndex]?.toList
  | .waitAll => objects

omit [DecidableEq Thread] in
theorem consumeObjectSignals_eq (s : Dispatcher Thread Object) (objects : List Object) (waitType : KWaitType)
    (signaledIndex : Nat) : ksiConsumeObjectSignals s objects waitType signaledIndex =
      s.consume (satisfying objects signaledIndex waitType) := by
  rw [← foldl_consumeSignal]
  cases waitType with
  | waitAny => cases chosen : objects[signaledIndex]? <;> simp [ksiConsumeObjectSignals, satisfying, chosen]
  | waitAll => rfl

section Assign
variable (s : Dispatcher Thread Object) (t : Thread) (objects : List Object)

def assignOwners : Dispatcher Thread Object := objects.foldl (fun s object => ksiAssignMutantOwner s t object) s

theorem assignMutantOwner_header (o : Object) : (ksiAssignMutantOwner s t o).header = s.header := by
  unfold ksiAssignMutantOwner
  split <;> rfl

theorem assignMutantOwner_thread (o : Object) : (ksiAssignMutantOwner s t o).thread = s.thread := by
  unfold ksiAssignMutantOwner
  split <;> rfl

theorem assignMutantOwner_ownerThread (o m : Object) : (ksiAssignMutantOwner s t o).ownerThread m =
    if m = o ∧ s.isMutant m then some t else s.ownerThread m := by
  unfold ksiAssignMutantOwner
  by_cases same : m = o
  · subst same
    by_cases mutant : s.isMutant m <;> simp [mutant]
  · by_cases mutant : s.isMutant o <;> simp [mutant, same, insertTailList]

theorem assignOwners_header : (assignOwners s t objects).header = s.header := by
  induction objects generalizing s with
  | nil => rfl
  | cons o rest ih => exact (ih _).trans (assignMutantOwner_header s t o)

theorem assignOwners_thread : (assignOwners s t objects).thread = s.thread := by
  induction objects generalizing s with
  | nil => rfl
  | cons o rest ih => exact (ih _).trans (assignMutantOwner_thread s t o)

theorem assignOwners_ownerThread (m : Object) : (assignOwners s t objects).ownerThread m =
    if m ∈ objects ∧ s.isMutant m then some t else s.ownerThread m := by
  induction objects generalizing s with
  | nil => simp [assignOwners]
  | cons o rest ih =>
    have kind : (ksiAssignMutantOwner s t o).isMutant m = s.isMutant m := by
      rw [isMutant, assignMutantOwner_header]
      rfl
    have step : (assignOwners s t (o :: rest)).ownerThread m =
        (assignOwners (ksiAssignMutantOwner s t o) t rest).ownerThread m := rfl
    rw [step, ih, kind, assignMutantOwner_ownerThread]
    grind

end Assign

theorem Lines.assignOwners {s : Dispatcher Thread Object} {waiters owned} (lines : Lines s waiters owned)
    (t : Thread) (objects : List Object) (distinct : (objects.filter s.isMutant).Nodup)
    (free : ∀ m ∈ objects, s.isMutant m → s.ownerThread m = none) :
    Lines (assignOwners s t objects) waiters
      (update owned t (owned t ++ objects.filter s.isMutant)) := by
  induction objects generalizing s owned with
  | nil => simpa [Ks.assignOwners] using lines
  | cons o rest ih =>
    have kinds : (ksiAssignMutantOwner s t o).isMutant = s.isMutant := by
      funext m
      rw [isMutant, assignMutantOwner_header]
      rfl
    have step : Ks.assignOwners s t (o :: rest) = Ks.assignOwners (ksiAssignMutantOwner s t o) t rest := rfl
    rw [step]
    by_cases mutant : s.isMutant o
    · rw [filter_cons_of_pos mutant] at distinct ⊢
      obtain ⟨once, distinct⟩ := nodup_cons.mp distinct
      have assigned := lines.assignMutantOwner (free o mem_cons_self mutant) t mutant
      have rest := ih assigned (by rwa [kinds]) fun m member isMutant => by
        rw [kinds] at isMutant
        have other : m ≠ o := by
          rintro rfl
          exact once (mem_filter.mpr ⟨member, isMutant⟩)
        rw [assignMutantOwner_ownerThread, if_neg fun both => other both.1]
        exact free m (mem_cons_of_mem _ member) isMutant
      simpa [kinds] using rest
    · rw [filter_cons_of_neg mutant] at distinct ⊢
      rw [ksiAssignMutantOwner, if_neg mutant]
      exact ih lines distinct fun m member => free m (mem_cons_of_mem _ member)

section Removal
variable (s : Dispatcher Thread Object) (t : Thread)

theorem removeWaitBlock_thread (i : Fin 3) : (removeWaitBlock s t i).thread =
    update s.thread t ((s.thread t).setBlock i none) := by
  unfold removeWaitBlock
  cases block : (s.thread t).waitBlock i with
  | none =>
    have same : (s.thread t).setBlock i none = s.thread t := by
      simp [KThread.setBlock, ← block]
    simp [same]
  | some o => rfl

theorem removeWaitBlock_rest (i : Fin 3) : (removeWaitBlock s t i).header = s.header ∧
    (removeWaitBlock s t i).ownerThread = s.ownerThread ∧ (removeWaitBlock s t i).limit = s.limit := by
  unfold removeWaitBlock
  split <;> exact ⟨rfl, rfl, rfl⟩

theorem removeThreadWaitBlocks_thread : (ksiRemoveThreadWaitBlocks s t).thread =
    update s.thread t { s.thread t with waitBlock := fun _ => none } := by
  simp only [ksiRemoveThreadWaitBlocks, threadWaitObjects, foldl_cons, foldl_nil,
    removeWaitBlock_thread, update_idem, update_self]
  congr 1
  simp only [KThread.setBlock, KThread.mk.injEq, true_and, and_true]
  funext i
  rcases (by omega : i = 0 ∨ i = 1 ∨ i = 2) with rfl | rfl | rfl <;> simp [update]

theorem removeThreadWaitBlocks_rest : (ksiRemoveThreadWaitBlocks s t).header = s.header ∧
    (ksiRemoveThreadWaitBlocks s t).ownerThread = s.ownerThread ∧
    (ksiRemoveThreadWaitBlocks s t).limit = s.limit := by
  simp only [ksiRemoveThreadWaitBlocks, threadWaitObjects, foldl_cons, foldl_nil,
    removeWaitBlock_rest, and_self]

end Removal
end VeaOS.Ks
