import VeaOS.Foundation.Grouped
import VeaOS.Foundation.RingSides
import VeaOS.Ks.DispatcherSteps

/-! The wait lists alone. A granted wait may leave the lists of the mutants in any
state; what the dispatcher is without its mutants keeps its wait lists all the same. -/
namespace VeaOS.Ks
open Foundation Dispatcher List ListEntry RingLinks
variable {Thread Object : Type}

def ListEntry.waits : ListEntry Thread Object → Bool
  | .waitListHead _ | .waitListEntry _ _ => true
  | .mutantListHead _ | .mutantListEntry _ => false

namespace Dispatcher
variable (s : Dispatcher Thread Object)

/-- The entry is of a list of mutants, and it has been initialized. -/
def MutantEntry : ListEntry Thread Object → Prop
  | .mutantListHead _ => True
  | .mutantListEntry m => s.isMutant m
  | .waitListHead _ | .waitListEntry _ _ => False

/-- The dispatcher with an event in the place of each mutant. -/
def mutantless : Dispatcher Thread Object where
  header o := if s.isMutant o then ⟨.eventSynchronizationObject, s.signalState o⟩ else s.header o
  ownerThread _ := none
  limit := s.limit
  thread := s.thread
  links := s.links.restrict ListEntry.waits

@[simp] theorem mutantless_signalState (o : Object) : s.mutantless.signalState o = s.signalState o := by
  by_cases mutant : s.isMutant o <;> simp [signalState, mutantless, mutant]

@[simp] theorem mutantless_isMutant (o : Object) : s.mutantless.isMutant o = false := by
  by_cases mutant : (s.header o).type = .mutantObject <;> simp [isMutant, mutantless, mutant]

@[simp] theorem mutantless_isNotification (o : Object) : s.mutantless.isNotification o = s.isNotification o := by
  by_cases mutant : s.isMutant o
  · have type : (s.header o).type = .mutantObject := by simpa [isMutant] using mutant
    simp [isNotification, mutantless, mutant, type, ksiIsNotificationObject]
  · simp [isNotification, mutantless, mutant]

variable {s} {s' : Dispatcher Thread Object}

theorem mutantless_congr (headers : s'.header = s.header) (limits : s'.limit = s.limit)
    (threads : s'.thread = s.thread)
    (links : s'.links.restrict waits = s.links.restrict waits) :
    s'.mutantless = s.mutantless := by
  obtain ⟨header, ownerThread, limit, thread, links'⟩ := s'
  subst headers limits threads
  exact congrArg (mk s.mutantless.header (fun _ => none) s.limit s.thread) links

theorem MutantEntry.not_waits {x : ListEntry Thread Object} (inside : s.MutantEntry x) : x.waits = false := by
  cases x with
  | mutantListHead | mutantListEntry => rfl
  | waitListHead | waitListEntry => exact inside.elim

theorem not_mutantEntry {x : ListEntry Thread Object} (waits : x.waits = true) : ¬ s.MutantEntry x := by
  intro inside
  rw [inside.not_waits] at waits
  cases waits

theorem mutantEntry_congr (kinds : s'.isMutant = s.isMutant) : s'.MutantEntry = s.MutantEntry := by
  funext x
  cases x with
  | mutantListEntry m => exact congrArg (· = true) (congrFun kinds m)
  | mutantListHead | waitListHead | waitListEntry => rfl

end Dispatcher

section Erasure
variable [DecidableEq Thread] [DecidableEq Object] {s s' : Dispatcher Thread Object} {t : Thread} {o : Object}
  {waiters : Object → List (Thread × Fin 3)} {owned : Thread → List Object}

omit [DecidableEq Thread] in
theorem mutantless_setSignal (v : Int) : (s.setSignal o v).mutantless = s.mutantless.setSignal o v := by
  have headers : (s.setSignal o v).mutantless.header = (s.mutantless.setSignal o v).header := by
    funext x
    by_cases same : x = o
    · subst same
      by_cases mutant : (s.header x).type = .mutantObject <;>
        simp [mutantless, setSignal, isMutant, signalState, mutant]
    · simp [mutantless, setSignal, isMutant, signalState, same]
  exact congrArg (mk · (fun _ => none) s.limit s.thread (s.links.restrict waits)) headers

omit [DecidableEq Thread] in
theorem mutantless_consume (objects : List Object) :
    (s.consume objects).mutantless = s.mutantless.consume objects := by
  have headers : (s.consume objects).mutantless.header = (s.mutantless.consume objects).header := by
    funext x
    by_cases mutant : (s.header x).type = .mutantObject
    · simp [mutantless, consume, isMutant, signalState, isNotification, ksiIsNotificationObject, mutant]
    · by_cases notification : ksiIsNotificationObject (s.header x).type <;>
        simp [mutantless, consume, isMutant, signalState, isNotification, mutant, notification]
  exact congrArg (mk · (fun _ => none) s.limit s.thread (s.links.restrict waits)) headers

theorem assignOwner_erased (closed : s.links.Closed s.MutantEntry) (t : Thread) (o : Object) :
    (ksiAssignMutantOwner s t o).mutantless = s.mutantless ∧
      (ksiAssignMutantOwner s t o).links.Closed (ksiAssignMutantOwner s t o).MutantEntry := by
  have kinds : (ksiAssignMutantOwner s t o).isMutant = s.isMutant := by
    funext m
    rw [isMutant, assignMutantOwner_header]
    rfl
  rw [mutantEntry_congr kinds]
  by_cases mutant : s.isMutant o
  · have last := (closed (.mutantListHead t) trivial).2
    rw [ksiAssignMutantOwner, if_pos mutant]
    refine ⟨mutantless_congr rfl rfl rfl ?_, ?_⟩
    · exact restrict_insertTail_off rfl rfl last.not_waits
    · exact closed.insertTail (iff_of_true trivial mutant) (iff_of_true last trivial)
  · rw [ksiAssignMutantOwner, if_neg mutant]
    exact ⟨rfl, closed⟩

theorem assignOwners_erased (closed : s.links.Closed s.MutantEntry) (t : Thread) (objects : List Object) :
    (assignOwners s t objects).mutantless = s.mutantless ∧
      (assignOwners s t objects).links.Closed (assignOwners s t objects).MutantEntry := by
  induction objects generalizing s with
  | nil => exact ⟨rfl, closed⟩
  | cons o rest ih =>
    obtain ⟨erased, next⟩ := assignOwner_erased closed t o
    obtain ⟨same, kept⟩ := ih next
    exact ⟨same.trans erased, kept⟩

theorem assignOwners_none (none : ∀ o, s.isMutant o = false) (t : Thread) (objects : List Object) :
    assignOwners s t objects = s := by
  induction objects with
  | nil => rfl
  | cons o rest ih =>
    have skip : assignOwners s t (o :: rest) = assignOwners s t rest := by
      rw [assignOwners, foldl_cons, ksiAssignMutantOwner, if_neg (by simp [none])]
      rfl
    rw [skip, ih]

omit [DecidableEq Thread] [DecidableEq Object] in
theorem Lines.waits_of_mem (o : Object) {x : ListEntry Thread Object}
    (inside : x ∈ waitListHead o :: (waiters o).map waitEntry) : x.waits = true := by
  rcases mem_cons.mp inside with rfl | inside
  · rfl
  · obtain ⟨b, -, rfl⟩ := mem_map.mp inside
    rfl

omit [DecidableEq Thread] [DecidableEq Object] in
theorem Lines.neighbours (lines : Lines s.mutantless waiters owned) (o : Object) {x : ListEntry Thread Object}
    (inside : x ∈ waitListHead o :: (waiters o).map waitEntry) :
    (s.links.flink x).waits = true ∧ (s.links.blink x).waits = true := by
  have here := waits_of_mem o inside
  obtain ⟨next, last⟩ := (lines.waitRing o).neighbours inside
  rw [mutantless, restrict_flink here] at next
  rw [mutantless, restrict_blink here] at last
  exact ⟨waits_of_mem o next, waits_of_mem o last⟩

theorem removeWaitBlock_erased (lines : Lines s.mutantless waiters owned) (i : Fin 3) :
    (removeWaitBlock s t i).mutantless = removeWaitBlock s.mutantless t i ∧
      (s.links.Closed s.MutantEntry →
        (removeWaitBlock s t i).links.Closed (removeWaitBlock s t i).MutantEntry) := by
  have kinds : (removeWaitBlock s t i).isMutant = s.isMutant := by
    funext m
    rw [isMutant, (removeWaitBlock_rest s t i).1]
    rfl
  rw [mutantEntry_congr kinds]
  unfold removeWaitBlock
  cases block : (s.thread t).waitBlock i with
  | none =>
    have same : (s.mutantless.thread t).waitBlock i = none := block
    simp only [same]
    exact ⟨trivial, id⟩
  | some o =>
    have same : (s.mutantless.thread t).waitBlock i = some o := block
    obtain ⟨next, last⟩ := lines.neighbours o
      (mem_cons_of_mem _ (mem_map_of_mem (lines.blocked.mpr same)))
    simp only [same]
    constructor
    · have links : (s.links.removeEntryList (.waitListEntry t i)).restrict waits =
          s.mutantless.links.removeEntryList (.waitListEntry t i) :=
        restrict_removeEntry rfl next last
      exact congrArg (mk s.mutantless.header (fun _ => none) s.limit _) links
    · exact fun closed => closed.removeEntry (iff_of_false (not_mutantEntry next) (not_mutantEntry last))

theorem removeThreadWaitBlocks_erased (lines : Lines s.mutantless waiters owned) (t : Thread) :
    (ksiRemoveThreadWaitBlocks s t).mutantless = ksiRemoveThreadWaitBlocks s.mutantless t ∧
      (s.links.Closed s.MutantEntry →
        (ksiRemoveThreadWaitBlocks s t).links.Closed (ksiRemoveThreadWaitBlocks s t).MutantEntry) := by
  obtain ⟨first, closed₁⟩ := removeWaitBlock_erased (t := t) lines 0
  have lines₁ := lines.removeWaitBlock t 0
  rw [← first] at lines₁
  obtain ⟨second, closed₂⟩ := removeWaitBlock_erased (t := t) lines₁ 1
  have lines₂ := lines₁.removeWaitBlock t 1
  rw [← second] at lines₂
  obtain ⟨third, closed₃⟩ := removeWaitBlock_erased (t := t) lines₂ 2
  refine ⟨?_, fun closed => closed₃ (closed₂ (closed₁ closed))⟩
  simp only [ksiRemoveThreadWaitBlocks, threadWaitObjects, foldl_cons, foldl_nil]
  rw [third, second, first]

theorem served_none (none : ∀ o, s.isMutant o = false) (t : Thread) (idx : Nat) :
    served s t idx = (s.consume (taken s t idx)).setThread t { s.thread t with waitStatus := .success } := by
  rw [served, assignOwners_none fun o => by rw [consume_isMutant, none]]
  rfl

theorem served_erased (closed : s.links.Closed s.MutantEntry) (t : Thread) (idx : Nat) :
    (served s t idx).mutantless = served s.mutantless t idx ∧
      (served s t idx).links.Closed (served s t idx).MutantEntry := by
  have consumed : (s.consume (taken s t idx)).MutantEntry = s.MutantEntry :=
    mutantEntry_congr (consume_isMutant s _)
  have before : (s.consume (taken s t idx)).links.Closed (s.consume (taken s t idx)).MutantEntry :=
    consumed ▸ closed
  obtain ⟨assigned, kept⟩ := assignOwners_erased before t (s.thread t).waitObjects
  refine ⟨?_, kept⟩
  have erased : (served s t idx).mutantless =
      (assignOwners (s.consume (taken s t idx)) t (s.thread t).waitObjects).mutantless.setThread t
        { (assignOwners (s.consume (taken s t idx)) t (s.thread t).waitObjects).thread t with
          waitStatus := .success } := rfl
  rw [erased, assigned, mutantless_consume, assignOwners_thread, served_none (mutantless_isMutant s)]
  rfl

theorem satisfyThreadWait_erased (lines : Lines s.mutantless waiters owned) (closed : s.links.Closed s.MutantEntry)
    (t : Thread) (idx : Nat) :
    (ksiSatisfyThreadWait s t idx).mutantless = ksiSatisfyThreadWait s.mutantless t idx ∧
      (ksiSatisfyThreadWait s t idx).links.Closed (ksiSatisfyThreadWait s t idx).MutantEntry := by
  obtain ⟨served, kept⟩ := served_erased closed t idx
  have waiting : Lines (Ks.served s t idx).mutantless waiters owned := by
    rw [served, served_none (mutantless_isMutant s)]
    refine lines.congr rfl (fun u => ?_) rfl
    by_cases same : u = t
    · subst same
      simp [setThread]
    · simp [setThread, same, consume]
  obtain ⟨removed, kept'⟩ := removeThreadWaitBlocks_erased waiting t
  rw [satisfyThreadWait_eq, satisfyThreadWait_eq, ← served, ← removed]
  exact ⟨rfl, kept' kept⟩

theorem insertWaitBlock_erased (lines : Lines s.mutantless waiters owned) (o : Object) (i : Fin 3) :
    (insertWaitBlock t s (o, i)).mutantless = insertWaitBlock t s.mutantless (o, i) ∧
      (s.links.Closed s.MutantEntry →
        (insertWaitBlock t s (o, i)).links.Closed (insertWaitBlock t s (o, i)).MutantEntry) := by
  have last : ((s.links.initializeListHead (.waitListEntry t i)).blink (.waitListHead o)).waits = true := by
    have same : (s.links.initializeListHead (.waitListEntry t i)).blink (.waitListHead o) =
        s.links.blink (.waitListHead o) := by
      simp [initializeListHead, setBlink, setFlink]
    rw [same]
    exact (lines.neighbours o mem_cons_self).2
  constructor
  · have links : ((s.links.initializeListHead (.waitListEntry t i)).insertTailList (.waitListHead o)
          (.waitListEntry t i)).restrict waits =
        (s.mutantless.links.initializeListHead (.waitListEntry t i)).insertTailList (.waitListHead o)
          (.waitListEntry t i) := by
      rw [restrict_insertTail rfl rfl last, restrict_initializeHead rfl]
      rfl
    exact congrArg (mk s.mutantless.header (fun _ => none) s.limit _) links
  · intro closed
    exact (closed.initializeHead _).insertTail Iff.rfl (iff_of_false (not_mutantEntry last) id)

theorem insertWaitBlocks_erased (blocks : List (Object × Fin 3)) (distinct : (blocks.map Prod.snd).Nodup)
    (lines : Lines s.mutantless waiters owned) (unused : ∀ b ∈ blocks, (s.thread t).waitBlock b.2 = none) :
    (blocks.foldl (insertWaitBlock t) s).mutantless = blocks.foldl (insertWaitBlock t) s.mutantless ∧
      (s.links.Closed s.MutantEntry → (blocks.foldl (insertWaitBlock t) s).links.Closed
        (blocks.foldl (insertWaitBlock t) s).MutantEntry) := by
  induction blocks generalizing s waiters with
  | nil => exact ⟨rfl, id⟩
  | cons b rest ih =>
    obtain ⟨outside, distinct⟩ := nodup_cons.mp distinct
    obtain ⟨erased, kept⟩ := insertWaitBlock_erased (t := t) lines b.1 b.2
    have lines' := lines.insertWaitBlock (unused b mem_cons_self) b.1
    rw [← erased] at lines'
    obtain ⟨all, closed⟩ := ih distinct lines' fun c member => by
      have other : c.2 ≠ b.2 := fun same => outside (mem_map.mpr ⟨c, member, same⟩)
      have before := unused c (mem_cons_of_mem _ member)
      simpa [insertWaitBlock, setThread, KThread.setBlock, other] using before
    exact ⟨all.trans (congrArg (rest.foldl (insertWaitBlock t)) erased), fun before => closed (kept before)⟩

end Erasure

/-- The wait lists are in order, whatever the lists of the mutants are. -/
structure WaitLists (s : Dispatcher Thread Object) (waiters : Object → List (Thread × Fin 3)) : Prop where
  held : Consistent s.mutantless waiters fun _ => []
  closed : s.links.Closed s.MutantEntry
  grouped (o : Object) : Grouped ((waiters o).map Prod.fst)

namespace WaitLists
variable {s s' : Dispatcher Thread Object} {t : Thread} {o m : Object} {waiters : Object → List (Thread × Fin 3)}

theorem ring (lists : WaitLists s waiters) (o : Object) :
    s.links.Ring (.waitListHead o) ((waiters o).map waitEntry) :=
  (lists.held.waitRing o).of_restrict fun _ => Lines.waits_of_mem o

theorem blocked (lists : WaitLists s waiters) {i : Fin 3} :
    (t, i) ∈ waiters o ↔ (s.thread t).waitBlock i = some o :=
  lists.held.blocked

theorem waiting (lists : WaitLists s waiters) {i : Fin 3} (inside : (t, i) ∈ waiters o) :
    (s.thread t).state = .waiting := by
  by_contra awake
  have unused := lists.held.idle awake i
  rw [lists.held.blocked.mp inside] at unused
  cases unused

theorem congr (lists : WaitLists s waiters) (held : Consistent s'.mutantless waiters fun _ => [])
    (links : s'.links = s.links) (kinds : s'.isMutant = s.isMutant) : WaitLists s' waiters where
  held := held
  closed := by
    rw [links, mutantEntry_congr kinds]
    exact lists.closed
  grouped := lists.grouped

variable [DecidableEq Thread] [DecidableEq Object]

omit [DecidableEq Thread] in
theorem setSignal (lists : WaitLists s waiters) (o : Object) (v : Int) : WaitLists (s.setSignal o v) waiters := by
  refine lists.congr ?_ rfl (setSignal_isMutant s o v)
  rw [mutantless_setSignal]
  exact lists.held.setSignal (by simp) v

theorem surrender (lists : WaitLists s waiters) (mutant : s.isMutant m) : WaitLists (surrendered s m) waiters := by
  have ends := lists.closed (.mutantListEntry m) mutant
  have erased : { s with
      links := s.links.removeEntryList (.mutantListEntry m)
      ownerThread := Function.update s.ownerThread m none }.mutantless = s.mutantless :=
    mutantless_congr rfl rfl rfl (restrict_removeEntry_off rfl ends.1.not_waits ends.2.not_waits)
  have released : WaitLists { s with
      links := s.links.removeEntryList (.mutantListEntry m)
      ownerThread := Function.update s.ownerThread m none } waiters :=
    ⟨erased.symm ▸ lists.held, lists.closed.removeEntry (iff_of_true ends.1 ends.2), lists.grouped⟩
  exact released.setSignal m 1

omit [DecidableEq Object] in
theorem setWaitNext (lists : WaitLists s waiters) (t : Thread) (wait : Bool) :
    WaitLists (s.setWaitNext t wait) waiters := by
  have held : (s.setWaitNext t wait).mutantless = s.mutantless.setWaitNext t wait := by
    unfold Dispatcher.setWaitNext
    split <;> rfl
  obtain ⟨links, -, headers⟩ := setWaitNext_rest s t wait
  refine lists.congr (held ▸ lists.held.setWaitNext t wait) links ?_
  funext m
  rw [isMutant, isMutant, headers]

omit [DecidableEq Thread] in
theorem satisfied_erased (s : Dispatcher Thread Object) (t : Thread) (o : Object) :
    ksiThreadWaitIsSatisfied s.mutantless t o = ksiThreadWaitIsSatisfied s t o := by
  simp only [ksiThreadWaitIsSatisfied, mutantless_signalState]
  rfl

omit [DecidableEq Thread] in
theorem spares (s : Dispatcher Thread Object) (t : Thread) (o : Object) : Spares s.mutantless t o := by
  have none : (s.mutantless.thread t).waitObjects.filter s.mutantless.isMutant = [] :=
    filter_eq_nil_iff.mpr fun m _ => by simp
  unfold Spares
  cases (s.mutantless.thread t).waitType with
  | waitAny => exact .inl none
  | waitAll => exact none ▸ nodup_nil

variable (lists : WaitLists s waiters)
include lists

theorem satisfy {idx : Nat} (satisfied : ksiThreadWaitIsSatisfied s t o = some idx) :
    WaitLists (ksiSatisfyThreadWait s t idx) fun o => (waiters o).filter fun b => b.1 ≠ t := by
  obtain ⟨erased, closed⟩ := satisfyThreadWait_erased lists.held.toLines lists.closed t idx
  have held := lists.held.satisfy ((satisfied_erased s t o).trans satisfied) (by simp) (spares s t o)
  have none : (s.mutantless.thread t).waitObjects.filter s.mutantless.isMutant = [] :=
    filter_eq_nil_iff.mpr fun m _ => by simp
  rw [none, append_nil, Function.update_eq_self, ← erased] at held
  exact ⟨held, closed, fun x => (lists.grouped x).sublist (filter_sublist.map Prod.fst)⟩

theorem satisfy_flink {idx : Nat} {j : Fin 3}
    (satisfied : ksiThreadWaitIsSatisfied s t o = some idx) (used : (s.thread t).waitBlock j ≠ none) :
    (ksiSatisfyThreadWait s t idx).links.flink (.waitListEntry t j) = .waitListEntry t j := by
  have loose := lists.held.satisfy_flink ((satisfied_erased s t o).trans satisfied) (by simp) (spares s t o) used
  rw [← (satisfyThreadWait_erased lists.held.toLines lists.closed t idx).1] at loose
  exact loose

theorem grantAtOnce (t : Thread) (objects : List Object) :
    WaitLists (assignOwners ((begun s t).consume objects) t objects) waiters := by
  have kinds : ((begun s t).consume objects).isMutant = s.isMutant := consume_isMutant _ _
  have before : ((begun s t).consume objects).links.Closed ((begun s t).consume objects).MutantEntry := by
    rw [mutantEntry_congr kinds]
    exact lists.closed
  obtain ⟨erased, closed⟩ := assignOwners_erased before t objects
  have held : Consistent ((begun s.mutantless t).consume objects) waiters
      (Function.update (fun _ => []) t ([] ++ [])) :=
    (lists.held.begun t).grant t objects [] nodup_nil nofun fun m mutant => by
      have none : s.mutantless.isMutant m = true := mutant
      simp at none
  rw [append_nil, Function.update_eq_self] at held
  refine ⟨?_, closed, lists.grouped⟩
  rw [erased, mutantless_consume]
  exact held

theorem park (running : (s.thread t).state = .running) {objects : List Object}
    (bound : objects.length ≤ 3) (waitType : KWaitType) :
    ∃ waiters', WaitLists (parked s t objects waitType) waiters' := by
  have unused (i : Fin 3) : (s.thread t).waitBlock i = none := lists.held.idle (by simp [mutantless, running]) i
  have absent (o : Object) : t ∉ (waiters o).map Prod.fst := fun inside => by
    obtain ⟨b, member, rfl⟩ := mem_map.mp inside
    have block := lists.blocked.mp member
    rw [unused] at block
    cases block
  have idle : ∀ b ∈ objects.zip threadWaitObjects, ((begun s t).thread t).waitBlock b.2 = none := fun b _ => by
    simpa [begun, setThread] using unused b.2
  have lines : Lines (begun s t).mutantless waiters fun _ => [] := (lists.held.begun t).toLines
  obtain ⟨inserted, closed⟩ :=
    insertWaitBlocks_erased (objects.zip threadWaitObjects) (waitBlocks_distinct bound) lines idle
  have erased : (parked s t objects waitType).mutantless = parked s.mutantless t objects waitType := by
    have first : (parked s t objects waitType).mutantless =
        ((objects.zip threadWaitObjects).foldl (insertWaitBlock t) (begun s t)).mutantless.setThread t
          { ((objects.zip threadWaitObjects).foldl (insertWaitBlock t) (begun s t)).mutantless.thread t with
            waitType := waitType, waitStatus := .pending, state := .waiting } := rfl
    rw [first, inserted]
    rfl
  obtain ⟨waiters', held, appended⟩ := lists.held.park running bound waitType
  refine ⟨waiters', erased.symm ▸ held, closed lists.closed, fun o => ?_⟩
  obtain ⟨back, behind, own⟩ := appended o
  rw [behind, map_append]
  refine (lists.grouped o).append (absent o) fun u inside => ?_
  obtain ⟨b, member, rfl⟩ := mem_map.mp inside
  exact own b member

theorem resume (ready : (s.thread t).state = .ready) :
    WaitLists (finishWait s t).1 fun o => (waiters o).filter fun b => b.1 ≠ t := by
  have lines : Lines (s.setThread t { s.thread t with state := .running }).mutantless waiters fun _ => [] := by
    refine lists.held.toLines.congr rfl (fun u => ?_) rfl
    by_cases same : u = t
    · subst same
      simp [mutantless, setThread]
    · simp [mutantless, setThread, same]
  obtain ⟨erased, closed⟩ := removeThreadWaitBlocks_erased lines t
  refine ⟨?_, closed lists.closed, fun x => (lists.grouped x).sublist (filter_sublist.map Prod.fst)⟩
  have held : Consistent (finishWait s.mutantless t).1 _ _ := lists.held.resume ready
  rw [finishWait, erased]
  exact held

theorem initializeMutant (unnamed : ∀ u i, (s.thread u).waitBlock i ≠ some m)
    (t : Thread) (initialOwner : Bool) : WaitLists (ksInitializeMutant s t m initialOwner) waiters := by
  have entries : (ksInitializeMutant s t m initialOwner).MutantEntry =
      fun x => s.MutantEntry x ∨ x = .mutantListEntry m := by
    funext x
    cases x with
    | mutantListEntry n =>
      by_cases same : n = m <;> simp [MutantEntry, isMutant, ksInitializeMutant, same]
    | mutantListHead | waitListHead | waitListEntry => simp [MutantEntry]
  have closed := (lists.closed.adjoin (.mutantListEntry m)).initializeHead (.waitListHead m)
  have last := (closed (.mutantListHead t) (.inl trivial)).2
  have off := last.elim MutantEntry.not_waits fun same => (congrArg waits same).trans rfl
  have links : (ksInitializeMutant s t m initialOwner).mutantless.links =
      s.mutantless.links.initializeListHead (.waitListHead m) := by
    have fresh : ((s.links.initializeListHead (.mutantListEntry m)).initializeListHead
        (.waitListHead m)).restrict waits = s.mutantless.links.initializeListHead (.waitListHead m) := by
      rw [restrict_initializeHead rfl, restrict_initializeHead_off rfl]
      rfl
    cases initialOwner with
    | false => exact fresh
    | true => exact (restrict_insertTail_off rfl rfl off).trans fresh
  have nobody : waiters m = [] :=
    eq_nil_iff_forall_not_mem.mpr fun b member => unnamed b.1 b.2 (lists.blocked.mp member)
  refine ⟨{ waitRing := fun o => ?_, mutantRing := fun u => ?_, blocked := lists.held.blocked,
            owns := lists.held.owns, typed := fun {n u} owner => ?_, signal := fun {n} mutant => ?_,
            filled := lists.held.filled, idle := lists.held.idle }, ?_, lists.grouped⟩
  · rw [links]
    by_cases same : o = m
    · subst same
      rw [nobody]
      exact ring_initialize _ _
    · refine (lists.held.waitRing o).initialize_apart fun member => ?_
      rcases mem_cons.mp member with equal | member
      · exact same (waitListHead.inj equal).symm
      · obtain ⟨b, -, equal⟩ := mem_map.mp member
        cases equal
  · rw [links]
    exact (lists.held.mutantRing u).initialize_apart (by simp)
  · cases owner
  · simp at mutant
  · rw [entries]
    cases initialOwner with
    | false => exact closed
    | true => exact closed.insertTail (iff_of_true (.inl trivial) (.inr rfl)) (iff_of_true last (.inl trivial))

end WaitLists
end VeaOS.Ks
