import VeaOS.Ks.WaitGrants

/-! The walk of `KsWaitTest` over the waiters of a signalled object: every wait
it grants leaves the lists, the owners and the signals in agreement, where the
wait takes no mutant that it should not. -/
namespace VeaOS.Ks
open Foundation Dispatcher Function List
variable {Thread Object : Type}

/-- The lists, the owners and the signals of the mutants agree; a thread uses wait
blocks only while it waits, and uses the first ones. -/
structure Consistent (s : Dispatcher Thread Object) (waiters : Object → List (Thread × Fin 3))
    (owned : Thread → List Object) : Prop extends Lines s waiters owned where
  typed {m : Object} {t : Thread} : s.ownerThread m = some t → s.isMutant m
  signal {m : Object} : s.isMutant m → s.signalState m = if s.ownerThread m = none then 1 else 0
  filled (t : Thread) (i : Fin 3) : (s.thread t).waitBlock i = (s.thread t).waitObjects[i.val]?
  idle {t : Thread} : (s.thread t).state ≠ .waiting → ∀ i, (s.thread t).waitBlock i = none

/-- The wait, granted for this object, takes the mutants that it may: of a `WaitAny`
the object alone, of a `WaitAll` every mutant once. -/
def Spares [DecidableEq Object] (s : Dispatcher Thread Object) (t : Thread) (object : Object) : Prop :=
  let mutants := (s.thread t).waitObjects.filter s.isMutant
  match (s.thread t).waitType with
  | .waitAny => mutants = [] ∨ mutants = [object]
  | .waitAll => mutants.Nodup

/-- The test goes on past a wait it has granted. -/
def GoesOn (object : Object) (s : Dispatcher Thread Object) : Prop :=
  s.isNotification object ∨ 0 < s.signalState object

section Satisfy
variable [DecidableEq Thread] [DecidableEq Object] {s s' : Dispatcher Thread Object} {t u : Thread}

omit [DecidableEq Thread] in
theorem consume_isMutant (s : Dispatcher Thread Object) (objects : List Object) :
    (s.consume objects).isMutant = s.isMutant := by
  funext m
  unfold isMutant consume
  by_cases notification : s.isNotification m <;> simp [notification]

omit [DecidableEq Thread] in
theorem consume_isNotification (s : Dispatcher Thread Object) (objects : List Object) :
    (s.consume objects).isNotification = s.isNotification := by
  funext m
  by_cases notification : ksiIsNotificationObject (s.header m).type <;>
    simp [isNotification, consume, notification]

omit [DecidableEq Thread] in
theorem consume_signalState (s : Dispatcher Thread Object) (objects : List Object) (o : Object) :
    (s.consume objects).signalState o =
      if s.isNotification o then s.signalState o else s.signalState o - objects.count o := by
  simp only [signalState, consume]
  split <;> rfl

/-- The objects that a wait which is satisfied so takes its signals from. -/
def taken (s : Dispatcher Thread Object) (t : Thread) (signaledIndex : Nat) : List Object :=
  satisfying (s.thread t).waitObjects signaledIndex (s.thread t).waitType

/-- The thread has its signals and its mutants, but its blocks are still on the lists. -/
def served (s : Dispatcher Thread Object) (t : Thread) (signaledIndex : Nat) : Dispatcher Thread Object :=
  let s₂ := assignOwners (s.consume (taken s t signaledIndex)) t (s.thread t).waitObjects
  s₂.setThread t { s₂.thread t with waitStatus := .success }

theorem satisfyThreadWait_eq (s : Dispatcher Thread Object) (t : Thread) (idx : Nat) :
    ksiSatisfyThreadWait s t idx = (ksiRemoveThreadWaitBlocks (served s t idx) t).wakeThread t := by
  simp only [ksiSatisfyThreadWait, consumeObjectSignals_eq]
  rfl

theorem served_thread (s : Dispatcher Thread Object) (t : Thread) (idx : Nat) :
    (served s t idx).thread = update s.thread t { s.thread t with waitStatus := .success } := by
  simp [served, setThread, assignOwners_thread, consume]

omit [DecidableEq Object] in
theorem wakeThread_rest (s : Dispatcher Thread Object) (t : Thread) :
    (s.wakeThread t).header = s.header ∧ (s.wakeThread t).ownerThread = s.ownerThread ∧
    (s.wakeThread t).limit = s.limit ∧ (s.wakeThread t).links = s.links := by
  exact ⟨rfl, rfl, rfl, rfl⟩

omit [DecidableEq Object] in
theorem wakeThread_waitBlock (s : Dispatcher Thread Object) (t u : Thread) :
    ((s.wakeThread t).thread u).waitBlock = (s.thread u).waitBlock := by
  by_cases same : u = t
  · subst same
    simp only [wakeThread, setThread, update_self, KThread.ptWakeThread]
    split <;> rfl
  · simp [wakeThread, setThread, same]

theorem satisfyThreadWait_header (s : Dispatcher Thread Object) (t : Thread) (idx : Nat) :
    (ksiSatisfyThreadWait s t idx).header = (s.consume (taken s t idx)).header := by
  rw [satisfyThreadWait_eq]
  simp only [wakeThread_rest, removeThreadWaitBlocks_rest]
  exact assignOwners_header _ _ _

theorem satisfyThreadWait_ownerThread (s : Dispatcher Thread Object) (t : Thread) (idx : Nat) (m : Object) :
    (ksiSatisfyThreadWait s t idx).ownerThread m =
      if m ∈ (s.thread t).waitObjects ∧ s.isMutant m then some t else s.ownerThread m := by
  rw [satisfyThreadWait_eq]
  simp only [wakeThread_rest, removeThreadWaitBlocks_rest]
  refine (assignOwners_ownerThread _ _ _ m).trans ?_
  rw [consume_isMutant]
  rfl

theorem satisfyThreadWait_thread (idx : Nat) (waiting : (s.thread t).state = .waiting) :
    (ksiSatisfyThreadWait s t idx).thread = update s.thread t
      { s.thread t with
        waitStatus := .success
        waitBlock := fun _ => none
        state := .ready } := by
  rw [satisfyThreadWait_eq]
  simp [wakeThread, KThread.ptWakeThread, removeThreadWaitBlocks_thread, setThread, waiting, served_thread]

theorem satisfyThreadWait_isMutant (s : Dispatcher Thread Object) (t : Thread) (idx : Nat) :
    (ksiSatisfyThreadWait s t idx).isMutant = s.isMutant := by
  rw [← consume_isMutant s (taken s t idx)]
  funext m
  rw [isMutant, satisfyThreadWait_header]
  rfl

theorem satisfyThreadWait_isNotification (s : Dispatcher Thread Object) (t : Thread) (idx : Nat) :
    (ksiSatisfyThreadWait s t idx).isNotification = s.isNotification := by
  rw [← consume_isNotification s (taken s t idx)]
  funext m
  rw [isNotification, satisfyThreadWait_header]
  rfl

theorem satisfyThreadWait_signalState (s : Dispatcher Thread Object) (t : Thread) (idx : Nat) (o : Object) :
    (ksiSatisfyThreadWait s t idx).signalState o =
      if s.isNotification o then s.signalState o else s.signalState o - (taken s t idx).count o := by
  rw [← consume_signalState, signalState, satisfyThreadWait_header]
  rfl

end Satisfy

section Grants
variable [DecidableEq Thread] [DecidableEq Object] {s s' : Dispatcher Thread Object} {t u : Thread}
  {o : Object} {waiters : Object → List (Thread × Fin 3)} {owned : Thread → List Object} {idx : Nat}

omit [DecidableEq Thread] in
theorem Consistent.taken_any (held : Consistent s waiters owned) (any : (s.thread t).waitType = .waitAny)
    (satisfied : ksiThreadWaitIsSatisfied s t o = some idx) :
    taken s t idx = [o] ∧ o ∈ (s.thread t).waitObjects := by
  simp only [ksiThreadWaitIsSatisfied, any] at satisfied
  obtain ⟨small, found, -⟩ := findIdx?_eq_some_iff_getElem.mp satisfied
  have block : ∃ i : Fin 3, i.val = idx ∧ (s.thread t).waitBlock i = some o := by
    simp only [threadWaitObjects, map_cons, map_nil, length_cons, length_nil] at small
    rcases (by omega : idx = 0 ∨ idx = 1 ∨ idx = 2) with rfl | rfl | rfl
    · exact ⟨0, rfl, by simpa [threadWaitObjects] using found⟩
    · exact ⟨1, rfl, by simpa [threadWaitObjects] using found⟩
    · exact ⟨2, rfl, by simpa [threadWaitObjects] using found⟩
  obtain ⟨i, rfl, block⟩ := block
  rw [held.filled] at block
  exact ⟨by simp [taken, any, satisfying, block], mem_of_getElem? block⟩

omit [DecidableEq Thread] in
theorem taken_all (all : (s.thread t).waitType = .waitAll)
    (satisfied : ksiThreadWaitIsSatisfied s t o = some idx) :
    taken s t idx = (s.thread t).waitObjects ∧ ∀ x ∈ (s.thread t).waitObjects, 0 < s.signalState x := by
  simp only [ksiThreadWaitIsSatisfied, all] at satisfied
  refine ⟨by simp [taken, all, satisfying], fun x member => ?_⟩
  split at satisfied
  · cases satisfied
  · rename_i signalled
    simp only [any_eq_true, decide_eq_true_eq, not_exists, not_and, Int.not_le] at signalled
    exact signalled x member

omit [DecidableEq Thread] in
theorem Spares.distinct (spares : Spares s t o) : ((s.thread t).waitObjects.filter s.isMutant).Nodup := by
  unfold Spares at spares
  cases kind : (s.thread t).waitType with
  | waitAny =>
    simp only [kind] at spares
    rcases spares with none | one
    · simp [none]
    · simp [one]
  | waitAll => simpa [kind] using spares

omit [DecidableEq Thread] in
theorem Consistent.free (held : Consistent s waiters owned) (satisfied : ksiThreadWaitIsSatisfied s t o = some idx)
    (lit : s.isMutant o → 0 < s.signalState o) (spares : Spares s t o) {m : Object}
    (member : m ∈ (s.thread t).waitObjects) (mutant : s.isMutant m) : s.ownerThread m = none := by
  have positive : 0 < s.signalState m := by
    cases kind : (s.thread t).waitType with
    | waitAny =>
      simp only [Spares, kind] at spares
      have inside := mem_filter.mpr ⟨member, mutant⟩
      rcases spares with empty | one
      · simp [empty] at inside
      · rw [one, mem_singleton] at inside
        subst inside
        exact lit mutant
    | waitAll => exact (taken_all kind satisfied).2 m member
  by_contra owned
  rw [held.signal mutant, if_neg owned] at positive
  omega

omit [DecidableEq Thread] in
theorem Consistent.taken_count (held : Consistent s waiters owned) (satisfied : ksiThreadWaitIsSatisfied s t o = some idx)
    (spares : Spares s t o) {m : Object} (mutant : s.isMutant m) :
    (taken s t idx).count m = if m ∈ (s.thread t).waitObjects then 1 else 0 := by
  cases kind : (s.thread t).waitType with
  | waitAny =>
    obtain ⟨single, listed⟩ := held.taken_any kind satisfied
    rw [single]
    by_cases member : m ∈ (s.thread t).waitObjects
    · have inside := mem_filter.mpr ⟨member, mutant⟩
      simp only [Spares, kind] at spares
      rcases spares with empty | one
      · simp [empty] at inside
      · rw [one, mem_singleton] at inside
        simp [inside, listed]
    · have other : m ≠ o := fun same => member (same ▸ listed)
      simp [member, Ne.symm other]
  | waitAll =>
    rw [(taken_all kind satisfied).1]
    by_cases member : m ∈ (s.thread t).waitObjects
    · rw [if_pos member, ← count_filter mutant]
      exact count_eq_one_of_mem spares.distinct (mem_filter.mpr ⟨member, mutant⟩)
    · rw [if_neg member, count_eq_zero_of_not_mem member]

omit [DecidableEq Thread] [DecidableEq Object] in
theorem mutant_not_notification {m : Object} (mutant : s.isMutant m) : ¬ s.isNotification m := by
  have type : (s.header m).type = .mutantObject := by simpa [isMutant] using mutant
  simp [isNotification, type, ksiIsNotificationObject]

omit [DecidableEq Thread] [DecidableEq Object] in
theorem Consistent.congr (held : Consistent s waiters owned) (links : s'.links = s.links)
    (owners : s'.ownerThread = s.ownerThread) (mutants : s'.isMutant = s.isMutant)
    (signals : ∀ m, s.isMutant m → s'.signalState m = s.signalState m)
    (blocks : ∀ t, (s'.thread t).waitBlock = (s.thread t).waitBlock)
    (states : ∀ t, (s'.thread t).state ≠ .waiting → (s.thread t).state ≠ .waiting) :
    Consistent s' waiters owned where
  toLines := held.toLines.congr links blocks owners
  typed := by
    intro m t
    rw [owners, mutants]
    exact held.typed
  signal := by
    intro m mutant
    rw [mutants] at mutant
    rw [signals m mutant, owners]
    exact held.signal mutant
  filled := by
    intro t i
    rw [KThread.waitObjects, blocks]
    exact held.filled t i
  idle := by
    intro t awake i
    rw [blocks]
    exact held.idle (states t awake) i

theorem granted_isMutant (s : Dispatcher Thread Object) (t : Thread) (used given : List Object) :
    (assignOwners (s.consume used) t given).isMutant = s.isMutant := by
  refine Eq.trans ?_ (consume_isMutant s used)
  funext m
  rw [isMutant, assignOwners_header]
  rfl

theorem granted_signalState (s : Dispatcher Thread Object) (t : Thread) (used given : List Object)
    (o : Object) : (assignOwners (s.consume used) t given).signalState o =
      if s.isNotification o then s.signalState o else s.signalState o - used.count o := by
  rw [signalState, assignOwners_header, ← signalState, consume_signalState]

theorem granted_ownerThread (s : Dispatcher Thread Object) (t : Thread) (used given : List Object)
    (m : Object) : (assignOwners (s.consume used) t given).ownerThread m =
      if m ∈ given ∧ s.isMutant m then some t else s.ownerThread m := by
  rw [assignOwners_ownerThread, consume_isMutant]
  rfl

variable (held : Consistent s waiters owned)
include held

theorem Consistent.grant (t : Thread) (used given : List Object)
    (distinct : (given.filter s.isMutant).Nodup)
    (free : ∀ m ∈ given, s.isMutant m → s.ownerThread m = none)
    (counted : ∀ m, s.isMutant m → used.count m = if m ∈ given then 1 else 0) :
    Consistent (assignOwners (s.consume used) t given) waiters
      (update owned t (owned t ++ given.filter s.isMutant)) := by
  have consumed : Lines (s.consume used) waiters owned := held.toLines.congr rfl (fun _ => rfl) rfl
  have assigned := consumed.assignOwners t given (by rwa [consume_isMutant])
    (by rwa [consume_isMutant])
  rw [consume_isMutant] at assigned
  refine { toLines := assigned, typed := ?_, signal := ?_, filled := ?_, idle := ?_ }
  · intro m u owner
    rw [granted_isMutant]
    rw [granted_ownerThread] at owner
    split at owner
    · rename_i both
      exact both.2
    · exact held.typed owner
  · intro m mutant
    rw [granted_isMutant] at mutant
    rw [granted_signalState, if_neg (mutant_not_notification mutant), counted m mutant, held.signal mutant,
      granted_ownerThread]
    by_cases member : m ∈ given
    · simp [member, mutant, free m member mutant]
    · simp [member]
  · intro u i
    rw [assignOwners_thread]
    exact held.filled u i
  · intro u awake i
    rw [assignOwners_thread] at awake ⊢
    exact held.idle awake i

theorem Consistent.leave (t : Thread) :
    Consistent ((ksiRemoveThreadWaitBlocks s t).wakeThread t) (fun o => (waiters o).filter fun b => b.1 ≠ t)
      owned := by
  have rest := removeThreadWaitBlocks_rest s t
  have lines := (held.removeThreadWaitBlocks t).congr (wakeThread_rest _ t).2.2.2
    (fun u => wakeThread_waitBlock _ t u) (wakeThread_rest _ t).2.1
  have blocks : ∀ u, (((ksiRemoveThreadWaitBlocks s t).wakeThread t).thread u).waitBlock =
      if u = t then fun _ => none else (s.thread u).waitBlock := by
    intro u
    rw [wakeThread_waitBlock, removeThreadWaitBlocks_thread]
    by_cases same : u = t
    · subst same
      simp
    · simp [same]
  refine { toLines := lines, typed := ?_, signal := ?_, filled := ?_, idle := ?_ }
  · intro m u
    rw [isMutant, (wakeThread_rest _ t).1, (wakeThread_rest _ t).2.1, rest.1, rest.2.1]
    exact held.typed
  · intro m
    rw [isMutant, signalState, (wakeThread_rest _ t).1, (wakeThread_rest _ t).2.1, rest.1, rest.2.1]
    exact held.signal
  · intro u i
    rw [KThread.waitObjects, blocks]
    by_cases same : u = t
    · simp [same, threadWaitObjects]
    · rw [if_neg same]
      exact held.filled u i
  · intro u awake i
    rw [blocks]
    by_cases same : u = t
    · simp [same]
    · rw [if_neg same]
      refine held.idle ?_ i
      simpa [wakeThread, setThread, removeThreadWaitBlocks_thread, same] using awake

theorem Consistent.served (satisfied : ksiThreadWaitIsSatisfied s t o = some idx)
    (lit : s.isMutant o → 0 < s.signalState o) (spares : Spares s t o) :
    Consistent (served s t idx) waiters
      (update owned t (owned t ++ (s.thread t).waitObjects.filter s.isMutant)) := by
  have granted := held.grant t (taken s t idx) _ spares.distinct (fun m => held.free satisfied lit spares)
    fun m mutant => held.taken_count satisfied spares mutant
  refine granted.congr rfl rfl rfl (fun _ _ => rfl) (fun u => ?_) fun u => ?_
  · rw [served_thread, assignOwners_thread]
    by_cases same : u = t
    · subst same
      simp [consume]
    · simp [same, consume]
  · rw [served_thread, assignOwners_thread]
    by_cases same : u = t
    · subst same
      simp [consume]
    · simp [same, consume]

theorem Consistent.satisfy (satisfied : ksiThreadWaitIsSatisfied s t o = some idx)
    (lit : s.isMutant o → 0 < s.signalState o) (spares : Spares s t o) :
    Consistent (ksiSatisfyThreadWait s t idx) (fun o => (waiters o).filter fun b => b.1 ≠ t)
      (update owned t (owned t ++ (s.thread t).waitObjects.filter s.isMutant)) := by
  rw [satisfyThreadWait_eq]
  exact (held.served satisfied lit spares).leave t

theorem Consistent.satisfy_flink (satisfied : ksiThreadWaitIsSatisfied s t o = some idx)
    (lit : s.isMutant o → 0 < s.signalState o)
    (spares : Spares s t o) {j : Fin 3} (used : (s.thread t).waitBlock j ≠ none) :
    (ksiSatisfyThreadWait s t idx).links.flink (.waitListEntry t j) = .waitListEntry t j := by
  rw [satisfyThreadWait_eq]
  simp only [wakeThread_rest]
  refine (held.served satisfied lit spares).foldl_removeWaitBlock_flink t
    (.inr ⟨by simpa [served_thread] using used, ?_⟩)
  rcases (by omega : j = 0 ∨ j = 1 ∨ j = 2) with rfl | rfl | rfl <;> simp [threadWaitObjects]

end Grants

section Walk
variable [DecidableEq Thread] [DecidableEq Object] {s s' : Dispatcher Thread Object} {t u : Thread}
  {o : Object} {waiters : Object → List (Thread × Fin 3)} {owned : Thread → List Object} {idx : Nat}

theorem waitTestLoop_head (fuel : Nat) : waitTestLoop o (fuel + 1) (.waitListHead o) s = some s := by
  rw [waitTestLoop, if_pos rfl]

theorem waitTestLoop_pass (passed : (s.thread t).state = .waiting → ksiThreadWaitIsSatisfied s t o = none)
    (i : Fin 3) (fuel : Nat) : waitTestLoop o (fuel + 1) (.waitListEntry t i) s =
      waitTestLoop o fuel (s.links.flink (.waitListEntry t i)) s := by
  rw [waitTestLoop, if_neg (by simp)]
  cases satisfied : ksiThreadWaitIsSatisfied s t o with
  | none => simp only [satisfied]
  | some idx =>
    have awake : (s.thread t).state ≠ .waiting := by
      intro waiting
      cases satisfied.symm.trans (passed waiting)
    simp only [satisfied, if_neg awake]

theorem waitTestLoop_stops (waiting : (s.thread t).state = .waiting)
    (satisfied : ksiThreadWaitIsSatisfied s t o = some idx) (stops : ¬ GoesOn o (ksiSatisfyThreadWait s t idx))
    (i : Fin 3) (fuel : Nat) :
    waitTestLoop o (fuel + 1) (.waitListEntry t i) s = some (ksiSatisfyThreadWait s t idx) := by
  obtain ⟨notification, cold⟩ := not_or.mp stops
  rw [waitTestLoop, if_neg (by simp)]
  simp only [satisfied, if_pos waiting]
  rw [if_pos]
  simp only [Bool.not_eq_true] at notification
  simp only [notification, Bool.not_false, Bool.true_and, decide_eq_true_eq]
  omega

theorem waitTestLoop_goesOn (waiting : (s.thread t).state = .waiting)
    (satisfied : ksiThreadWaitIsSatisfied s t o = some idx) (goesOn : GoesOn o (ksiSatisfyThreadWait s t idx))
    (i : Fin 3) (fuel : Nat) : waitTestLoop o (fuel + 1) (.waitListEntry t i) s =
      waitTestLoop o fuel (s.links.flink (.waitListEntry t i)) (ksiSatisfyThreadWait s t idx) := by
  rw [waitTestLoop, if_neg (by simp)]
  simp only [satisfied, if_pos waiting]
  rw [if_neg]
  rcases goesOn with notification | positive
  · simp [notification]
  · simp only [Bool.and_eq_true, decide_eq_true_eq, not_and, Int.not_le]
    exact fun _ => positive

theorem waitTestLoop_stuck (loose : s.links.flink (.waitListEntry t j) = .waitListEntry t j)
    (awake : (s.thread t).state ≠ .waiting) (fuel : Nat) :
    waitTestLoop o fuel (.waitListEntry t j) s = none := by
  induction fuel with
  | zero => rfl
  | succ fuel ih =>
    rw [waitTestLoop_pass fun waiting => absurd waiting awake, loose]
    exact ih

/-- A parked wait whose condition holds with these signals, where its object is tested. -/
def WaitHolds (s : Dispatcher Thread Object) (left : Object → Int) (t : Thread) : Prop :=
  (s.thread t).state = .waiting ∧ match (s.thread t).waitType with
    | .waitAny => True
    | .waitAll => ∀ o ∈ (s.thread t).waitObjects, 0 < left o

/-- What a wait leaves of the signals. -/
def leaves (s : Dispatcher Thread Object) (object : Object) (t : Thread) (left : Object → Int) (o : Object) : Int :=
  if s.isNotification o then left o
  else match (s.thread t).waitType with
    | .waitAny => left o - [object].count o
    | .waitAll => left o - (s.thread t).waitObjects.count o

/-- The waits that a test of the object meets, in the order of its wait list: each one
whose condition holds with what those before it have left, as long as the object is
signalled. -/
inductive Meets (s : Dispatcher Thread Object) (object : Object) : (Object → Int) → List Thread → Thread → Prop where
  | here {left : Object → Int} {t : Thread} {rest : List Thread} (serves : WaitHolds s left t) :
      Meets s object left (t :: rest) t
  | past {left : Object → Int} {t u : Thread} {rest : List Thread} (unsatisfied : ¬ WaitHolds s left t)
      (further : Meets s object left rest u) : Meets s object left (t :: rest) u
  | behind {left : Object → Int} {t u : Thread} {rest : List Thread} (serves : WaitHolds s left t)
      (goesOn : s.isNotification object ∨ 0 < leaves s object t left object)
      (further : Meets s object (leaves s object t left) (rest.filter (· ≠ t)) u) :
      Meets s object left (t :: rest) u

omit [DecidableEq Thread] [DecidableEq Object] in
theorem WaitHolds.congr {left : Object → Int} (thread : s'.thread t = s.thread t) : WaitHolds s' left t ↔ WaitHolds s left t := by
  rw [WaitHolds, WaitHolds, thread]

theorem Meets.member {left : Object → Int} {listed : List Thread} (meets : Meets s o left listed u) : u ∈ listed := by
  induction meets with
  | here => exact mem_cons_self
  | past _ _ ih => exact mem_cons_of_mem _ ih
  | behind _ _ _ ih => exact mem_cons_of_mem _ (mem_of_mem_filter ih)

theorem Meets.congr {left : Object → Int} {listed : List Thread} (meets : Meets s' o left listed u)
    (threads : ∀ t ∈ listed, s'.thread t = s.thread t) (kinds : s'.isNotification = s.isNotification) :
    Meets s o left listed u := by
  have same : ∀ {t : Thread} {left : Object → Int}, s'.thread t = s.thread t →
      leaves s' o t left = leaves s o t left := by
    intro t left thread
    funext x
    rw [leaves, leaves, kinds, thread]
  induction meets with
  | here serves => exact .here ((WaitHolds.congr (threads _ mem_cons_self)).mp serves)
  | past unsatisfied _ ih =>
    exact .past (fun serves => unsatisfied ((WaitHolds.congr (threads _ mem_cons_self)).mpr serves))
      (ih fun t member => threads t (mem_cons_of_mem _ member))
  | behind serves goesOn _ ih =>
    have here := threads _ mem_cons_self
    rw [same here] at goesOn ih
    exact .behind ((WaitHolds.congr here).mp serves) (kinds ▸ goesOn)
      (ih fun t member => threads t (mem_cons_of_mem _ (mem_of_mem_filter member)))

omit [DecidableEq Thread] in
theorem Consistent.waitHolds (held : Consistent s waiters owned) {i : Fin 3} (block : (s.thread t).waitBlock i = some o) :
    WaitHolds s s.signalState t ↔
      (s.thread t).state = .waiting ∧ ∃ idx, ksiThreadWaitIsSatisfied s t o = some idx := by
  rw [WaitHolds]
  refine and_congr_right fun _ => ?_
  have listed : o ∈ (s.thread t).waitObjects := List.mem_of_getElem? ((held.filled t i).symm.trans block)
  cases kind : (s.thread t).waitType with
  | waitAny =>
    refine iff_of_true trivial (Option.ne_none_iff_exists'.mp fun none => ?_)
    simp only [ksiThreadWaitIsSatisfied, kind, List.findIdx?_eq_none_iff, decide_eq_false_iff_not] at none
    refine none (some o) (List.mem_map.mpr ⟨i, ?_, block⟩) rfl
    rcases (by omega : i = 0 ∨ i = 1 ∨ i = 2) with rfl | rfl | rfl <;> simp [threadWaitObjects]
  | waitAll =>
    constructor
    · intro signalled
      refine ⟨0, ?_⟩
      simp only [ksiThreadWaitIsSatisfied, kind]
      rw [if_neg, if_neg]
      · rw [List.isEmpty_iff]
        exact List.ne_nil_of_mem listed
      · simpa using signalled
    · rintro ⟨idx, satisfied⟩
      exact (taken_all kind satisfied).2

theorem Consistent.leaves (held : Consistent s waiters owned) (satisfied : ksiThreadWaitIsSatisfied s t o = some idx) :
    (ksiSatisfyThreadWait s t idx).signalState = leaves s o t s.signalState := by
  funext x
  rw [satisfyThreadWait_signalState, Ks.leaves]
  cases kind : (s.thread t).waitType with
  | waitAny => rw [(held.taken_any kind satisfied).1]
  | waitAll => rw [(taken_all kind satisfied).1]

/-- The test of this object finds a wait that it may grant. -/
structure Grants (Lit : Dispatcher Thread Object → Prop) (object : Object) (s : Dispatcher Thread Object)
    (t : Thread) (signaledIndex : Nat) : Prop where
  held : ∃ waiters owned, Consistent s waiters owned
  waiting : (s.thread t).state = .waiting
  named : object ∈ (s.thread t).waitObjects
  satisfied : ksiThreadWaitIsSatisfied s t object = some signaledIndex
  lit : Lit s
  spares : Spares s t object

def Granted (Lit : Dispatcher Thread Object → Prop) (object : Object) (s s' : Dispatcher Thread Object) : Prop :=
  ∃ t signaledIndex, Grants Lit object s t signaledIndex ∧ s' = ksiSatisfyThreadWait s t signaledIndex

/-- The entry at which the test stands when these blocks are still to come. -/
def entryAt (object : Object) (blocks : List (Thread × Fin 3)) : ListEntry Thread Object :=
  (blocks.map waitEntry).headD (.waitListHead object)

omit [DecidableEq Thread] [DecidableEq Object] in
theorem flink_first {blocks : List (Thread × Fin 3)} (ring : s.links.Ring (.waitListHead o) (blocks.map waitEntry)) :
    s.links.flink (.waitListHead o) = entryAt o blocks := by
  rw [ring.flink_head, entryAt]
  cases blocks <;> rfl

omit [DecidableEq Thread] [DecidableEq Object] in
theorem flink_next {blocks pre post : List (Thread × Fin 3)} {i : Fin 3}
    (ring : s.links.Ring (.waitListHead o) (blocks.map waitEntry)) (place : blocks = pre ++ (t, i) :: post) :
    s.links.flink (.waitListEntry t i) = entryAt o post := by
  rw [place, map_append, map_cons] at ring
  have next : s.links.flink (.waitListEntry t i) = _ := ring.flink_eq
  rw [next, entryAt]
  cases post <;> rfl

omit [DecidableEq Thread] [DecidableEq Object] in
theorem Consistent.listed (held : Consistent s waiters owned) {i : Fin 3} (block : (s.thread t).waitBlock i = some o) :
    o ∈ (s.thread t).waitObjects :=
  mem_of_getElem? ((held.filled t i).symm.trans block)

/-- What is to be shown of the walk: when it may grant, and what holds of the waiters
that are still to come, at a waiter that is passed and at one whose wait is granted. -/
structure WalkRule (o : Object) (Lit : Dispatcher Thread Object → Prop)
    (Rest : Dispatcher Thread Object → List (Thread × Fin 3) → Prop) : Prop where
  goesOn {s : Dispatcher Thread Object} : GoesOn o s → Lit s
  mutant {s : Dispatcher Thread Object} : Lit s → s.isMutant o → 0 < s.signalState o
  pass {s : Dispatcher Thread Object} {b : Thread × Fin 3} {post : List (Thread × Fin 3)} :
    Rest s (b :: post) → ((s.thread b.1).state = .waiting → ksiThreadWaitIsSatisfied s b.1 o = none) →
      Rest s post
  grant {s : Dispatcher Thread Object} {t : Thread} {i : Fin 3} {idx : Nat} {post : List (Thread × Fin 3)} :
    Rest s ((t, i) :: post) → Grants Lit o s t idx →
      Rest (ksiSatisfyThreadWait s t idx) (post.filter fun b => b.1 ≠ t)

/-- The threads whose waits are met behind one that is granted give up nothing either. -/
theorem Consistent.spares_behind (held : Consistent s waiters owned) {i : Fin 3} {post : List (Thread × Fin 3)}
    (block : (s.thread t).waitBlock i = some o) (waiting : (s.thread t).state = .waiting)
    (satisfied : ksiThreadWaitIsSatisfied s t o = some idx) (goesOn : GoesOn o (ksiSatisfyThreadWait s t idx))
    (spares : ∀ u, Meets s o s.signalState (t :: post.map Prod.fst) u → Spares s u o) (u : Thread)
    (meets : Meets (ksiSatisfyThreadWait s t idx) o (ksiSatisfyThreadWait s t idx).signalState
      ((post.filter fun b => b.1 ≠ t).map Prod.fst) u) : Spares (ksiSatisfyThreadWait s t idx) u o := by
  have kinds : (ksiSatisfyThreadWait s t idx).isNotification = s.isNotification := by
    funext x
    rw [satisfyThreadWait_isNotification]
  have fronts : (post.filter fun b => b.1 ≠ t).map Prod.fst = (post.map Prod.fst).filter (· ≠ t) := by
    rw [filter_map]
    rfl
  rw [fronts, held.leaves satisfied] at meets
  have other : u ≠ t := by simpa using (mem_filter.mp meets.member).2
  have same : (ksiSatisfyThreadWait s t idx).thread u = s.thread u := by
    simp [satisfyThreadWait_thread idx waiting, other]
  unfold Spares
  rw [same, satisfyThreadWait_isMutant]
  refine spares u (.behind ((held.waitHolds block).mpr ⟨waiting, idx, satisfied⟩) ?_
    (meets.congr (fun x member => ?_) kinds))
  · rw [← held.leaves satisfied, ← kinds]
    exact goesOn
  · have apart : x ≠ t := by simpa using (mem_filter.mp member).2
    rw [satisfyThreadWait_thread idx waiting, update_of_ne apart]

/-- The walk, from the waiters `post` on. It ends behind the last of them, or where it
has granted a wait and the object is not signalled any more. -/
theorem WalkRule.loop {Lit : Dispatcher Thread Object → Prop}
    {Rest : Dispatcher Thread Object → List (Thread × Fin 3) → Prop} (rule : WalkRule o Lit Rest)
    {fuel : Nat} {pre post : List (Thread × Fin 3)} (held : Consistent s waiters owned)
    (place : waiters o = pre ++ post) (tested : waitTestLoop o fuel (entryAt o post) s = some s')
    (lit : Lit s) (rest : Rest s post)
    (spares : ∀ t, Meets s o s.signalState (post.map Prod.fst) t → Spares s t o) :
    (∃ waiters owned, Consistent s' waiters owned) ∧ Relation.ReflTransGen (Granted Lit o) s s' ∧
      (Rest s' [] ∨ ∃ post, Rest s' post ∧ ¬ GoesOn o s') := by
  induction fuel generalizing s waiters owned pre post with
  | zero => cases tested
  | succ fuel ih =>
    cases post with
    | nil =>
      rw [entryAt, map_nil, headD_nil, waitTestLoop_head] at tested
      cases tested
      exact ⟨⟨waiters, owned, held⟩, .refl, .inl rest⟩
    | cons b post =>
      obtain ⟨t, i⟩ := b
      have next := flink_next (held.waitRing o) place
      have passed : waiters o = (pre ++ [(t, i)]) ++ post := by simp [place]
      have block : (s.thread t).waitBlock i = some o := held.blocked.mp (by simp [place])
      have entry : entryAt o ((t, i) :: post) = .waitListEntry t i := rfl
      rw [entry] at tested
      by_cases serves : (s.thread t).state = .waiting ∧ ∃ idx, ksiThreadWaitIsSatisfied s t o = some idx
      · obtain ⟨waiting, idx, satisfied⟩ := serves
        have awake : ((ksiSatisfyThreadWait s t idx).thread t).state = .ready := by
          simp [satisfyThreadWait_thread idx waiting]
        have spared : Spares s t o := spares t (.here ((held.waitHolds block).mpr ⟨waiting, idx, satisfied⟩))
        have now := held.satisfy satisfied (rule.mutant lit) spared
        have grants : Grants Lit o s t idx :=
          ⟨⟨waiters, owned, held⟩, waiting, held.listed block, satisfied, lit, spared⟩
        have rest' := rule.grant rest grants
        by_cases goesOn : GoesOn o (ksiSatisfyThreadWait s t idx)
        · rw [waitTestLoop_goesOn waiting satisfied goesOn, next] at tested
          have place' : (waiters o).filter (fun b => b.1 ≠ t) =
              pre.filter (fun b => b.1 ≠ t) ++ post.filter (fun b => b.1 ≠ t) := by
            simp [place]
          -- A block of the same thread that comes next is off the list, and holds the test.
          have entry' : entryAt o post = entryAt o (post.filter fun b => b.1 ≠ t) := by
            cases post with
            | nil => rfl
            | cons c post =>
              obtain ⟨u, j⟩ := c
              have other : u ≠ t := by
                rintro rfl
                have used : (s.thread u).waitBlock j ≠ none := by
                  simp [held.blocked.mp (show (u, j) ∈ waiters o by simp [place])]
                have loose := held.satisfy_flink satisfied (rule.mutant lit) spared used
                have here : entryAt o ((u, j) :: post) = .waitListEntry u j := rfl
                rw [here, waitTestLoop_stuck loose (by simp [awake])] at tested
                cases tested
              simp [entryAt, other]
          rw [entry'] at tested
          obtain ⟨held', chain, done⟩ := ih now place' tested (rule.goesOn goesOn) rest'
            (held.spares_behind block waiting satisfied goesOn spares)
          exact ⟨held', .head ⟨t, idx, grants, rfl⟩ chain, done⟩
        · rw [waitTestLoop_stops waiting satisfied goesOn] at tested
          cases tested
          exact ⟨⟨_, _, now⟩, .single ⟨t, idx, grants, rfl⟩, .inr ⟨_, rest', goesOn⟩⟩
      · have unsatisfied (waiting : (s.thread t).state = .waiting) : ksiThreadWaitIsSatisfied s t o = none :=
          Option.eq_none_iff_forall_ne_some.mpr fun idx satisfied => serves ⟨waiting, idx, satisfied⟩
        rw [waitTestLoop_pass unsatisfied, next] at tested
        exact ih held passed tested lit (rule.pass rest unsatisfied) fun u meets =>
          spares u (.past (fun serving => serves ((held.waitHolds block).mp serving)) meets)

end Walk
end VeaOS.Ks
