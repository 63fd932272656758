import VeaOS.Ks.MutantOwnership

/-! Which threads an operation of the dispatcher wakes: those whose waits are
satisfied, each for the signals it takes, until no wait that is left is satisfied. -/
namespace VeaOS.Ks
open Foundation Dispatcher Function List
variable {Thread Object : Type}

section Statement
variable (s s' : Dispatcher Thread Object)

/-- What these objects offer is what the wait asks for. -/
def Satisfied (objects : List Object) : KWaitType → Prop
  | .waitAny => ∃ o ∈ objects, 0 < s.signalState o
  | .waitAll => objects ≠ [] ∧ ∀ o ∈ objects, 0 < s.signalState o

/-- No thread waits although its wait is satisfied. -/
def Quiet : Prop := ∀ t, (s.thread t).state = .waiting →
  ¬ Satisfied s (s.thread t).waitObjects (s.thread t).waitType

/-- The objects that satisfy a wait: one that is signalled, or all. -/
def Chooses (objects : List Object) (waitType : KWaitType) (used : List Object) : Prop :=
  match waitType with
  | .waitAny => ∃ o ∈ objects, 0 < s.signalState o ∧ used = [o]
  | .waitAll => (∀ o ∈ objects, 0 < s.signalState o) ∧ used = objects

/-- What is left of a signal that a thread has taken. -/
def leftover : KObjects → Int → Int
  | .semaphoreObject, state => state - 1
  | .eventSynchronizationObject, _ | .timerSynchronizationObject, _ | .mutantObject, _ => 0
  | .eventNotificationObject, state | .processObject, state | .threadObject, state => state

/-- The thread takes the signals of these objects, each once, and owns the mutants among them. -/
structure Takes [DecidableEq Object] (t : Thread) (used : List Object) : Prop where
  types (o : Object) : (s'.header o).type = (s.header o).type
  signals (o : Object) : s'.signalState o =
    if o ∈ used then leftover (s.header o).type (s.signalState o) else s.signalState o
  owners (m : Object) : s'.ownerThread m = if m ∈ used ∧ s.isMutant m then some t else s.ownerThread m

/-- Signals are never negative, and only those of semaphores are counted. -/
def SignalsCounted : Prop :=
  ∀ o, 0 ≤ s.signalState o ∧ ((s.header o).type ≠ .semaphoreObject → s.signalState o ≤ 1)

end Statement

section Service
variable [DecidableEq Thread] [DecidableEq Object] (s s' : Dispatcher Thread Object)

/-- A thread that waits is woken: its wait is satisfied, and it takes what satisfies it. -/
structure Grant (t : Thread) : Prop where
  waiting : (s.thread t).state = .waiting
  satisfied : Satisfied s (s.thread t).waitObjects (s.thread t).waitType
  takes : ∃ used, Chooses s (s.thread t).waitObjects (s.thread t).waitType used ∧ Takes s s' t used
  wakes : s'.thread = Function.update s.thread t
    { s.thread t with
      waitStatus := .success
      waitBlock := fun _ => none
      state := .ready }

/-- What an action does to the signals, the owners and the waits. -/
inductive Delivers : DispatcherAction Thread Object → Prop where
  | idle {action : DispatcherAction Thread Object} (idle : Idle s action) (same : s' = s) : Delivers action
  | signal {action : DispatcherAction Thread Object} {o : Object} {s₁ s₂ : Dispatcher Thread Object} {tests : Bool}
      (change : SignalChange s action o s₁ tests)
      (grants : Relation.ReflTransGen (fun a b => ∃ t, Grant a b t) s₁ s₂)
      (noted : (∃ t wait, s' = s₂.setWaitNext t wait) ∨ s' = s₂) : Delivers action
  | refused {t : Thread} {objects : List (Option Object)} {waitType : KWaitType} (same : s' = s) :
      Delivers (.wait t objects waitType)
  | atOnce {t : Thread} {objects : List (Option Object)} {waitType : KWaitType} {listed used : List Object}
      (all : objects.mapM id = some listed) (chooses : Chooses s listed waitType used)
      (takes : Takes s s' t used) (threads : s'.thread = (begun s t).thread) : Delivers (.wait t objects waitType)
  | parks {t : Thread} {objects : List (Option Object)} {waitType : KWaitType} {listed : List Object}
      (all : objects.mapM id = some listed) (unsatisfied : ¬ Satisfied s listed waitType)
      (headers : s'.header = s.header) (owners : s'.ownerThread = s.ownerThread)
      (threads : s'.thread = Function.update s.thread t
        ⟨.waiting, fun i => listed[i.val]?, waitType, .pending, false⟩) : Delivers (.wait t objects waitType)
  | resumes {t : Thread} (headers : s'.header = s.header) (owners : s'.ownerThread = s.ownerThread) :
      Delivers (.resume t)
  | initializes {t : Thread} {m : Object} {initialOwner : Bool}
      (same : s' = ksInitializeMutant s t m initialOwner) : Delivers (.initializeMutant t m initialOwner)

/-- The objects of a wait are distinct; waits that are granted take their own; nothing is
released into an empty semaphore for which a thread waits with others. -/
def Heeds (action : DispatcherAction Thread Object) : Prop :=
  TakesItsOwn s action ∧ match action with
  | .wait _ objects _ => objects.Nodup
  | .releaseSemaphore _ o adjustment _ => adjustment = 0 → s.signalState o = 0 →
      ∀ t, (s.thread t).state = .waiting → o ∈ (s.thread t).waitObjects → (s.thread t).waitType = .waitAll
  | _ => True

end Service

section Grants
variable [DecidableEq Thread] [DecidableEq Object] {s s' : Dispatcher Thread Object} {t : Thread} {o : Object}
  {waiters : Object → List (Thread × Fin 3)} {owned : Thread → List Object} {idx : Nat}

omit [DecidableEq Thread] [DecidableEq Object] in
theorem SignalsCounted.leftover (counted : SignalsCounted s) (positive : 0 < s.signalState o) :
    leftover (s.header o).type (s.signalState o) =
      if s.isNotification o then s.signalState o else s.signalState o - 1 := by
  have bound := (counted o).2
  have kind : s.isNotification o = ksiIsNotificationObject (s.header o).type := rfl
  rw [kind]
  cases type : (s.header o).type with
  | semaphoreObject | eventNotificationObject | processObject | threadObject => rfl
  | eventSynchronizationObject | timerSynchronizationObject | mutantObject =>
    have small := bound (by simp [type])
    simp only [Ks.leftover, ksiIsNotificationObject, Bool.false_eq_true, if_false]
    omega

omit [DecidableEq Thread] in
theorem SignalsCounted.consume (counted : SignalsCounted s) {used : List Object} (distinct : used.Nodup)
    (signalled : ∀ o ∈ used, 0 < s.signalState o) (o : Object) :
    (s.consume used).signalState o =
      if o ∈ used then Ks.leftover (s.header o).type (s.signalState o) else s.signalState o := by
  rw [consume_signalState]
  by_cases member : o ∈ used
  · rw [if_pos member, counted.leftover (signalled o member), count_eq_one_of_mem distinct member]
    rfl
  · rw [if_neg member, count_eq_zero_of_not_mem member]
    simp

omit [DecidableEq Thread] in
theorem Takes.counted {used : List Object} (counted : SignalsCounted s) (takes : Takes s s' t used)
    (signalled : ∀ o ∈ used, 0 < s.signalState o) : SignalsCounted s' := by
  intro o
  have before := counted o
  rw [takes.signals, takes.types]
  by_cases member : o ∈ used
  · have positive := signalled o member
    rw [if_pos member, counted.leftover positive]
    split <;> constructor <;> grind
  · rwa [if_neg member]

omit [DecidableEq Thread] in
theorem Takes.positive {used : List Object} (takes : Takes s s' t used)
    (signalled : ∀ o ∈ used, 0 < s.signalState o) (positive : 0 < s'.signalState o) : 0 < s.signalState o := by
  rw [takes.signals] at positive
  by_cases member : o ∈ used
  · exact signalled o member
  · rwa [if_neg member] at positive

omit [DecidableEq Thread] [DecidableEq Object] in
theorem Chooses.signalled {objects used : List Object} {waitType : KWaitType}
    (chooses : Chooses s objects waitType used) : ∀ o ∈ used, 0 < s.signalState o := by
  cases waitType with
  | waitAny =>
    obtain ⟨o, member, positive, rfl⟩ := chooses
    simpa using positive
  | waitAll =>
    obtain ⟨positive, rfl⟩ := chooses
    exact positive

omit [DecidableEq Thread] [DecidableEq Object] in
theorem Satisfied.mono {objects : List Object} {waitType : KWaitType} (satisfied : Satisfied s' objects waitType)
    (more : ∀ o, 0 < s'.signalState o → 0 < s.signalState o) : Satisfied s objects waitType := by
  cases waitType with
  | waitAny =>
    obtain ⟨o, member, positive⟩ := satisfied
    exact ⟨o, member, more o positive⟩
  | waitAll => exact ⟨satisfied.1, fun o member => more o (satisfied.2 o member)⟩

/-- When the test may grant: the object is signalled, or all that wait for it wait for
others as well. -/
def LitFor (o : Object) (s : Dispatcher Thread Object) : Prop :=
  GoesOn o s ∨ ¬ s.isMutant o ∧ ∀ t, (s.thread t).state = .waiting → o ∈ (s.thread t).waitObjects →
    (s.thread t).waitType = .waitAll

omit [DecidableEq Thread] [DecidableEq Object] in
theorem LitFor.mutant (lit : LitFor o s) (mutant : s.isMutant o) : 0 < s.signalState o := by
  rcases lit with goesOn | ⟨other, -⟩
  · exact goesOn.litMutant mutant
  · exact absurd mutant other

theorem Grants.grant (grants : Grants (LitFor o) o s t idx) (counted : SignalsCounted s)
    (shown : s.isNotification o → 0 < s.signalState o) (distinct : (s.thread t).waitObjects.Nodup) :
    Grant s (ksiSatisfyThreadWait s t idx) t := by
  obtain ⟨waiters, owned, held⟩ := grants.held
  have named : (s.thread t).waitObjects ≠ [] := ne_nil_of_mem grants.named
  have takes : ∀ used, Chooses s (s.thread t).waitObjects (s.thread t).waitType used →
      taken s t idx = used → used.Nodup →
      (∀ m, m ∈ (s.thread t).waitObjects ∧ s.isMutant m ↔ m ∈ used ∧ s.isMutant m) →
      Takes s (ksiSatisfyThreadWait s t idx) t used := by
    intro used chooses same nodup mutants
    refine ⟨fun x => ?_, fun x => ?_, fun m => ?_⟩
    · rw [satisfyThreadWait_header]
      simp only [consume]
      split <;> rfl
    · rw [signalState, satisfyThreadWait_header, same]
      exact counted.consume nodup chooses.signalled x
    · rw [satisfyThreadWait_ownerThread]
      simp only [mutants]
  cases kind : (s.thread t).waitType with
  | waitAny =>
    obtain ⟨single, member⟩ := held.taken_any kind grants.satisfied
    have positive : 0 < s.signalState o := by
      rcases grants.lit with goesOn | ⟨-, all⟩
      · exact goesOn.elim shown id
      · rw [all t grants.waiting member] at kind
        cases kind
    have chooses : Chooses s (s.thread t).waitObjects .waitAny [o] := ⟨o, member, positive, rfl⟩
    have spares := grants.spares
    simp only [Spares, kind] at spares
    refine ⟨grants.waiting, ?_, ⟨[o], kind ▸ chooses, takes [o] (kind ▸ chooses) single
      (nodup_singleton o) fun m => ?_⟩, satisfyThreadWait_thread idx grants.waiting⟩
    · rw [kind]
      exact ⟨o, member, positive⟩
    · rw [← mem_filter, mem_singleton]
      constructor
      · intro given
        have kindM := (mem_filter.mp given).2
        rcases spares with empty | one
        · simp [empty] at given
        · exact ⟨by simpa [one] using given, kindM⟩
      · rintro ⟨rfl, mutant⟩
        exact mem_filter.mpr ⟨member, mutant⟩
  | waitAll =>
    obtain ⟨all, positive⟩ := taken_all kind grants.satisfied
    have chooses : Chooses s (s.thread t).waitObjects .waitAll (s.thread t).waitObjects := ⟨positive, rfl⟩
    refine ⟨grants.waiting, ?_, ⟨_, kind ▸ chooses, takes _ (kind ▸ chooses) all distinct fun _ => Iff.rfl⟩,
      satisfyThreadWait_thread idx grants.waiting⟩
    rw [kind]
    exact ⟨named, positive⟩

end Grants

section Walk
variable [DecidableEq Thread] [DecidableEq Object] {s s' : Dispatcher Thread Object} {t : Thread} {o : Object}
  {waiters : Object → List (Thread × Fin 3)} {owned : Thread → List Object}

/-- Every wait that the signal of the object satisfies is still to come. -/
structure Unserved (o : Object) (s : Dispatcher Thread Object) (post : List (Thread × Fin 3)) : Prop where
  counted : SignalsCounted s
  shown : s.isNotification o → 0 < s.signalState o
  distinct (t : Thread) : (s.thread t).waitObjects.Nodup
  named {b : Thread × Fin 3} : b ∈ post → (s.thread b.1).waitBlock b.2 = some o
  ahead {t : Thread} : (s.thread t).state = .waiting →
    Satisfied s (s.thread t).waitObjects (s.thread t).waitType → ∃ i, (t, i) ∈ post
  others {t : Thread} {x : Object} : (s.thread t).state = .waiting → (s.thread t).waitType = .waitAny →
    x ∈ (s.thread t).waitObjects → x ≠ o → s.signalState x ≤ 0

omit [DecidableEq Thread] in
theorem unsatisfied_of_none {i : Fin 3} (block : (s.thread t).waitBlock i = some o)
    (unsatisfied : ksiThreadWaitIsSatisfied s t o = none) :
    ¬ Satisfied s (s.thread t).waitObjects (s.thread t).waitType := by
  intro satisfied
  simp only [ksiThreadWaitIsSatisfied] at unsatisfied
  cases kind : (s.thread t).waitType with
  | waitAny =>
    simp only [kind, findIdx?_eq_none_iff, decide_eq_false_iff_not] at unsatisfied
    refine unsatisfied (some o) (mem_map.mpr ⟨i, ?_, block⟩) rfl
    rcases (by omega : i = 0 ∨ i = 1 ∨ i = 2) with rfl | rfl | rfl <;> simp [threadWaitObjects]
  | waitAll =>
    rw [kind] at satisfied
    obtain ⟨filled, positive⟩ := satisfied
    simp only [kind] at unsatisfied
    split at unsatisfied
    · rename_i cold
      simp only [any_eq_true, decide_eq_true_eq] at cold
      obtain ⟨x, member, negative⟩ := cold
      have := positive x member
      omega
    · split at unsatisfied
      · rename_i empty
        exact filled (isEmpty_iff.mp empty)
      · cases unsatisfied

theorem Grant.unserved {idx : Nat} {post : List (Thread × Fin 3)} {i : Fin 3}
    (unserved : Unserved o s ((t, i) :: post)) (grants : Grants (LitFor o) o s t idx) :
    Unserved o (ksiSatisfyThreadWait s t idx) (post.filter fun b => b.1 ≠ t) := by
  obtain ⟨waiting, -, ⟨used, chooses, takes⟩, wakes⟩ :=
    grants.grant unserved.counted unserved.shown (unserved.distinct t)
  have others : ∀ u, ((ksiSatisfyThreadWait s t idx).thread u).state = .waiting →
      u ≠ t ∧ (ksiSatisfyThreadWait s t idx).thread u = s.thread u := by
    intro u waits
    have other : u ≠ t := by
      rintro rfl
      simp [wakes] at waits
    exact ⟨other, by simp [wakes, other]⟩
  have less : ∀ x, 0 < (ksiSatisfyThreadWait s t idx).signalState x → 0 < s.signalState x :=
    fun x => takes.positive chooses.signalled
  refine ⟨takes.counted unserved.counted chooses.signalled, fun notification => ?_, fun u => ?_, fun {b} member => ?_,
    fun {u} waits satisfied => ?_, fun {u x} waits any member other => ?_⟩
  · rw [satisfyThreadWait_isNotification] at notification
    rw [satisfyThreadWait_signalState, if_pos notification]
    exact unserved.shown notification
  · rw [wakes]
    by_cases same : u = t
    · subst same
      simp [KThread.waitObjects, threadWaitObjects]
    · rw [update_of_ne same]
      exact unserved.distinct u
  · obtain ⟨member, other⟩ := mem_filter.mp member
    rw [wakes, update_of_ne (by simpa using other)]
    exact unserved.named (mem_cons_of_mem _ member)
  · obtain ⟨other, same⟩ := others u waits
    rw [same] at waits satisfied
    obtain ⟨j, member⟩ := unserved.ahead waits (satisfied.mono less)
    have listed : (u, j) ∈ post := (mem_cons.mp member).resolve_left fun equal =>
      other (Prod.mk.inj equal).1
    exact ⟨j, mem_filter.mpr ⟨listed, by simpa using other⟩⟩
  · obtain ⟨-, same⟩ := others u waits
    rw [same] at waits any member
    have before := unserved.others waits any member other
    by_contra positive
    have := less x (by omega)
    omega

theorem unserved_rule (o : Object) :
    WalkRule o (LitFor o) (Unserved o : Dispatcher Thread Object → List (Thread × Fin 3) → Prop) where
  goesOn := .inl
  mutant := LitFor.mutant
  pass := by
    intro s b post unserved unsatisfied
    refine ⟨unserved.counted, unserved.shown, unserved.distinct, fun member =>
      unserved.named (mem_cons_of_mem _ member), fun {u} waits satisfied => ?_, unserved.others⟩
    obtain ⟨i, member⟩ := unserved.ahead waits satisfied
    refine ⟨i, (mem_cons.mp member).resolve_left ?_⟩
    rintro rfl
    exact unsatisfied_of_none (unserved.named mem_cons_self) (unsatisfied waits) satisfied
  grant := Grant.unserved

omit [DecidableEq Thread] [DecidableEq Object] in
theorem Unserved.quiet {post : List (Thread × Fin 3)} (unserved : Unserved o s post) (held : Consistent s waiters owned)
    (done : post = [] ∨ ¬ GoesOn o s) : Quiet s := by
  intro t waiting satisfied
  obtain ⟨i, member⟩ := unserved.ahead waiting satisfied
  rcases done with rfl | cold
  · cases member
  · have listed := held.listed (unserved.named member)
    have negative : ¬ 0 < s.signalState o := fun positive => cold (.inr positive)
    cases kind : (s.thread t).waitType with
    | waitAny =>
      rw [kind] at satisfied
      obtain ⟨x, member, positive⟩ := satisfied
      by_cases same : x = o
      · exact negative (same ▸ positive)
      · have := unserved.others waiting kind member same
        omega
    | waitAll =>
      rw [kind] at satisfied
      exact negative (satisfied.2 o listed)

theorem Unserved.grants {post : List (Thread × Fin 3)} (unserved : Unserved o s post)
    (chain : Relation.ReflTransGen (Granted (LitFor o) o) s s') :
    Relation.ReflTransGen (fun a b => ∃ t, Grant a b t) s s' ∧ SignalsCounted s' ∧
      ∀ t, (s'.thread t).waitObjects.Nodup := by
  have kept : SignalsCounted s ∧ (s.isNotification o → 0 < s.signalState o) ∧
      ∀ t, (s.thread t).waitObjects.Nodup := ⟨unserved.counted, unserved.shown, unserved.distinct⟩
  clear unserved
  induction chain using Relation.ReflTransGen.head_induction_on with
  | refl => exact ⟨.refl, kept.1, kept.2.2⟩
  | @head s₁ s₂ first rest ih =>
    obtain ⟨t, idx, grants, rfl⟩ := first
    obtain ⟨counted, shown, distinct⟩ := kept
    have grant := grants.grant counted shown (distinct t)
    obtain ⟨used, chooses, takes⟩ := grant.takes
    have wakes := grant.wakes
    obtain ⟨chain, after⟩ := ih ⟨takes.counted counted chooses.signalled, fun notification => by
      rw [satisfyThreadWait_isNotification] at notification
      rw [satisfyThreadWait_signalState, if_pos notification]
      exact shown notification, fun u => by
      rw [wakes]
      by_cases same : u = t
      · subst same
        simp [KThread.waitObjects, threadWaitObjects]
      · rw [update_of_ne same]
        exact distinct u⟩
    exact ⟨.head ⟨t, grant⟩ chain, after⟩

end Walk

section Steps
variable [DecidableEq Thread] [DecidableEq Object] {s s' s₁ : Dispatcher Thread Object} {t : Thread} {o m : Object}
  {waiters : Object → List (Thread × Fin 3)} {owned : Thread → List Object} {tests : Bool}
  {action : DispatcherAction Thread Object}

structure Attentive (s : Dispatcher Thread Object) : Prop where
  agrees : Agrees s
  counted : SignalsCounted s
  distinct (t : Thread) : (s.thread t).waitObjects.Nodup
  quiet : Quiet s

omit [DecidableEq Thread] [DecidableEq Object] in
theorem Consistent.named (held : Consistent s waiters owned) (member : o ∈ (s.thread t).waitObjects) :
    ∃ i, (s.thread t).waitBlock i = some o := by
  obtain ⟨n, found⟩ := List.mem_iff_getElem?.mp member
  have small : n < 3 := by
    have bound : (s.thread t).waitObjects.length ≤ 3 := by
      refine Nat.le_trans (List.length_filterMap_le _ _) ?_
      exact (List.takeWhile_sublist _).length_le
    have inside := (List.getElem?_eq_some_iff.mp found).1
    omega
  exact ⟨⟨n, small⟩, (held.filled t ⟨n, small⟩).trans found⟩

section
variable (change : SignalChange s action o s₁ tests)
include change

theorem SignalChange.signals {x : Object} (other : x ≠ o) : s₁.signalState x = s.signalState x := by
  cases change with
  | event | semaphore | timer => simp [setSignal_signalState, other]
  | mutant =>
    rw [surrendered, setSignal_signalState, if_neg other]
    rfl

theorem SignalChange.types (x : Object) : (s₁.header x).type = (s.header x).type := by
  cases change <;> simp [surrendered, setSignal_type]

theorem SignalChange.counted (counted : SignalsCounted s) : SignalsCounted s₁ := by
  intro x
  have before := counted x
  rw [change.types]
  by_cases same : x = o
  · subst same
    cases change with
    | event | timer | mutant => simp [surrendered, setSignal_signalState]
    | semaphore u x adjustment wait type grows =>
      rw [setSignal_signalState, if_pos rfl]
      exact ⟨by omega, fun other => absurd type other⟩
  · rwa [change.signals same]

theorem SignalChange.shown (notification : s₁.isNotification o) : 0 < s₁.signalState o := by
  have kind : ksiIsNotificationObject (s.header o).type := by
    rw [← change.types]
    exact notification
  cases change with
  | event | timer | mutant => simp [surrendered, setSignal_signalState]
  | semaphore u x adjustment wait type => simp [type, ksiIsNotificationObject] at kind

theorem SignalChange.litFor (heeds : Heeds s action) (tested : tests) : LitFor o s₁ := by
  cases change with
  | event | timer | mutant => exact .inl (.inr (by simp [surrendered, setSignal_signalState]))
  | semaphore u x adjustment wait type grows =>
    have zero : s.signalState o = 0 := by simpa using tested
    by_cases none : adjustment = 0
    · refine .inr ⟨by simp [isMutant, setSignal_type, type], fun t waiting listed => ?_⟩
      exact heeds.2 none zero t waiting listed
    · refine .inl (.inr ?_)
      rw [setSignal_signalState, if_pos rfl]
      omega

end

theorem Attentive.unserved (attentive : Attentive s) (held : Consistent s waiters owned)
    (change : SignalChange s action o s₁ tests) : Unserved o s₁ (waiters o) := by
  have threads := change.kept.1
  refine ⟨change.counted attentive.counted, change.shown, fun t => ?_, fun {b} member => ?_,
    fun {t} waiting satisfied => ?_, fun {t x} waiting any member other => ?_⟩
  · rw [threads]
    exact attentive.distinct t
  · rw [threads]
    exact held.blocked.mp member
  · rw [threads] at waiting satisfied
    have listed : o ∈ (s.thread t).waitObjects := by
      by_contra absent
      have same : ∀ x ∈ (s.thread t).waitObjects, s₁.signalState x = s.signalState x := fun x member =>
        change.signals fun equal => absent (equal ▸ member)
      refine attentive.quiet t waiting ?_
      cases kind : (s.thread t).waitType with
      | waitAny =>
        rw [kind] at satisfied
        obtain ⟨x, member, positive⟩ := satisfied
        exact ⟨x, member, by rwa [← same x member]⟩
      | waitAll =>
        rw [kind] at satisfied
        exact ⟨satisfied.1, fun x member => by
          rw [← same x member]
          exact satisfied.2 x member⟩
    obtain ⟨i, block⟩ := held.named listed
    exact ⟨i, held.blocked.mpr block⟩
  · rw [threads] at waiting any member
    rw [change.signals other]
    by_contra positive
    refine attentive.quiet t waiting ?_
    rw [any]
    exact ⟨x, member, by omega⟩

theorem SignalChange.untested (change : SignalChange s action o s₁ false) (counted : SignalsCounted s) (x : Object)
    (positive : 0 < s₁.signalState x) : 0 < s.signalState x := by
  by_cases same : x = o
  · subst same
    have before := (counted x).1
    generalize untested : false = tests at change
    cases change with
    | event t x wait type | semaphore t x adjustment wait type grows =>
      have nonzero : s.signalState x ≠ 0 := by simpa using untested.symm
      omega
    | timer => cases untested
    | mutant => cases untested
  · rwa [change.signals same] at positive

theorem Attentive.signal (attentive : Attentive s) (heeds : Heeds s action) (step : DispatcherStep s action s')
    (signals : action.signals = some o) (spares : MeetsSpare s action) : Attentive s' ∧ Delivers s s' action := by
  obtain ⟨waiters, owned, held⟩ := attentive.agrees
  rcases signal_cases step signals with ⟨idle, rfl⟩ | ⟨fuel, s₁, s₂, tests, change, tested, noted⟩
  · exact ⟨attentive, .idle idle rfl⟩
  · have threads : ∀ t, (s'.thread t).state = (s₂.thread t).state ∧
        (s'.thread t).waitObjects = (s₂.thread t).waitObjects ∧
        (s'.thread t).waitType = (s₂.thread t).waitType := by
      rcases noted with ⟨u, wait, rfl⟩ | rfl
      · intro t
        obtain ⟨blocks, state, type⟩ := setWaitNext_thread s₂ u t wait
        exact ⟨state, by rw [KThread.waitObjects, blocks]; rfl, type⟩
      · exact fun _ => ⟨rfl, rfl, rfl⟩
    have headers : s'.header = s₂.header := by
      rcases noted with ⟨u, wait, rfl⟩ | rfl
      · exact (setWaitNext_rest s₂ u wait).2.2
      · rfl
    have unserved := attentive.unserved held change
    obtain ⟨⟨w, l, now⟩, chain, done⟩ := (unserved_rule o).signalled held change
      (change.litFor heeds) (fun _ => unserved) tested spares
    obtain ⟨grants, counted, distinct⟩ := unserved.grants chain
    have quiet : Quiet s₂ := by
      rcases done with ⟨rfl, rfl⟩ | rest | ⟨post, rest, cold⟩
      · intro t waiting satisfied
        rw [change.kept.1] at waiting satisfied
        exact attentive.quiet t waiting (satisfied.mono fun x => change.untested attentive.counted x)
      · exact rest.quiet now (.inl rfl)
      · exact rest.quiet now (.inr cold)
    refine ⟨⟨?_, ?_, fun t => ?_, fun t waiting satisfied => ?_⟩, .signal change grants noted⟩
    · rcases noted with ⟨u, wait, rfl⟩ | rfl
      · exact ⟨w, l, now.setWaitNext u wait⟩
      · exact ⟨w, l, now⟩
    · intro x
      rw [signalState, headers]
      exact counted x
    · rw [(threads t).2.1]
      exact distinct t
    · rw [(threads t).1] at waiting
      rw [(threads t).2.1, (threads t).2.2] at satisfied
      exact quiet t waiting (satisfied.mono fun x => by
        rw [signalState, headers]
        exact id)

omit [DecidableEq Thread] [DecidableEq Object] in
theorem mapM_id_map {objects : List (Option Object)} {listed : List Object}
    (all : objects.mapM id = some listed) : objects = listed.map some := by
  induction objects generalizing listed with
  | nil => cases all; rfl
  | cons o rest ih =>
    simp only [mapM_cons, id_eq, Option.bind_eq_bind, Option.bind_eq_some_iff, Option.pure_def,
      Option.some.injEq] at all
    obtain ⟨x, rfl, xs, tail, rfl⟩ := all
    rw [map_cons, ← ih tail]

omit [DecidableEq Thread] [DecidableEq Object] in
theorem satisfying_chooses {listed : List Object} {waitType : KWaitType} {idx : Nat}
    (signalled : ksiAreObjectsSignaled s listed waitType = some idx) :
    Chooses s listed waitType (satisfying listed idx waitType) := by
  have positive := satisfying_signalled signalled
  cases waitType with
  | waitAny =>
    obtain ⟨small, found, -⟩ := findIdx?_eq_some_iff_getElem.mp signalled
    exact ⟨listed[idx], getElem_mem small, by simpa using found, by
      simp [satisfying, getElem?_eq_getElem small]⟩
  | waitAll => exact ⟨fun o member => (positive o member).2, rfl⟩

omit [DecidableEq Thread] [DecidableEq Object] in
theorem not_satisfied_of_none {listed : List Object} {waitType : KWaitType}
    (unsignalled : ksiAreObjectsSignaled s listed waitType = none) : ¬ Satisfied s listed waitType := by
  cases waitType with
  | waitAny =>
    rintro ⟨o, member, positive⟩
    have := findIdx?_eq_none_iff.mp unsignalled o member
    simp only [decide_eq_false_iff_not] at this
    exact this positive
  | waitAll =>
    rintro ⟨-, positive⟩
    simp only [ksiAreObjectsSignaled, ite_eq_right_iff, all_eq_true, decide_eq_true_eq] at unsignalled
    cases unsignalled positive

omit [DecidableEq Object] in
theorem begun_thread (s : Dispatcher Thread Object) (t u : Thread) :
    ((begun s t).thread u).state = (s.thread u).state ∧
    ((begun s t).thread u).waitObjects = (s.thread u).waitObjects ∧
    ((begun s t).thread u).waitType = (s.thread u).waitType := by
  by_cases same : u = t
  · subst same
    simp [begun, setThread, KThread.waitObjects]
  · simp [begun, setThread, same]

theorem Attentive.wait (attentive : Attentive s) {objects : List (Option Object)} {waitType : KWaitType}
    (heeds : Heeds s (.wait t objects waitType)) (step : DispatcherStep s (.wait t objects waitType) s') :
    Attentive s' ∧ Delivers s s' (.wait t objects waitType) := by
  obtain ⟨w, l, held⟩ := attentive.agrees
  have agrees := held.step heeds.1 step
  obtain ⟨running, fuel, stepped⟩ := step
  have waits := waitForMultipleObjects_waits s t objects waitType
  rw [Option.some.inj stepped] at waits
  cases waits with
  | refused => exact ⟨attentive, .refused rfl⟩
  | granted listed idx all signalled =>
    have distinct : listed.Nodup := .of_map _ (mapM_id_map all ▸ heeds.2)
    have chooses := satisfying_chooses signalled
    have nodup : (satisfying listed idx waitType).Nodup := by
      cases waitType with
      | waitAny => cases chosen : listed[idx]? <;> simp [satisfying, chosen]
      | waitAll => exact distinct
    have takes : Takes s (assignOwners ((begun s t).consume (satisfying listed idx waitType)) t
        (satisfying listed idx waitType)) t (satisfying listed idx waitType) := by
      refine ⟨fun x => ?_, fun x => ?_, fun m => granted_ownerThread _ t _ _ m⟩
      · rw [assignOwners_header]
        simp only [consume]
        split <;> rfl
      · rw [signalState, assignOwners_header]
        exact attentive.counted.consume nodup chooses.signalled x
    have threads : (assignOwners ((begun s t).consume (satisfying listed idx waitType)) t
        (satisfying listed idx waitType)).thread = (begun s t).thread := assignOwners_thread _ _ _
    refine ⟨⟨agrees, takes.counted attentive.counted chooses.signalled, fun u => ?_,
      fun u waiting satisfied => ?_⟩, .atOnce all chooses takes threads⟩
    · rw [threads, (begun_thread s t u).2.1]
      exact attentive.distinct u
    · rw [threads, (begun_thread s t u).1] at waiting
      rw [threads, (begun_thread s t u).2.1, (begun_thread s t u).2.2] at satisfied
      exact attentive.quiet u waiting (satisfied.mono fun x => takes.positive chooses.signalled)
  | parks listed all filled bound unsignalled =>
    have distinct : listed.Nodup := .of_map _ (mapM_id_map all ▸ heeds.2)
    obtain ⟨-, headers, owners, -, threads⟩ := held.parking running bound waitType
    have unsatisfied := not_satisfied_of_none unsignalled
    have own : (⟨.waiting, fun i : Fin 3 => listed[i.val]?, waitType, .pending, false⟩ :
        KThread Object).waitObjects = listed := waitObjects_eq bound fun _ => rfl
    have same : ∀ x, (parked s t listed waitType).signalState x = s.signalState x := by
      intro x
      rw [signalState, headers]
      rfl
    refine ⟨⟨agrees, fun x => ?_, fun u => ?_, fun u waiting satisfied => ?_⟩,
      .parks all unsatisfied headers owners threads⟩
    · rw [same, headers]
      exact attentive.counted x
    · rw [threads]
      by_cases equal : u = t
      · subst equal
        rw [update_self, own]
        exact distinct
      · rw [update_of_ne equal]
        exact attentive.distinct u
    · have before : Satisfied s ((parked s t listed waitType).thread u).waitObjects
          ((parked s t listed waitType).thread u).waitType := satisfied.mono fun x => by
        rw [same]
        exact id
      rw [threads] at waiting before
      by_cases equal : u = t
      · subst equal
        rw [update_self, own] at before
        exact unsatisfied before
      · rw [update_of_ne equal] at waiting before
        exact attentive.quiet u waiting before

theorem Attentive.step (attentive : Attentive s) (heeds : Heeds s action) (step : DispatcherStep s action s') :
    Attentive s' ∧ Delivers s s' action := by
  obtain ⟨w, l, held⟩ := attentive.agrees
  have agrees := held.step heeds.1 step
  cases action with
  | initializeMutant t m initialOwner =>
    obtain ⟨unowned, unnamed⟩ := heeds.1
    obtain ⟨running, fuel, stepped⟩ := step
    cases stepped
    have same : ∀ x, x ≠ m → (ksInitializeMutant s t m initialOwner).header x = s.header x := by
      intro x other
      simp [ksInitializeMutant, other]
    have mutant : (ksInitializeMutant s t m initialOwner).header m =
        ⟨.mutantObject, if initialOwner then 0 else 1⟩ := by
      simp [ksInitializeMutant]
    refine ⟨⟨agrees, fun x => ?_, attentive.distinct, fun u waiting satisfied => ?_⟩, .initializes rfl⟩
    · by_cases equal : x = m
      · subst equal
        rw [signalState, mutant]
        cases initialOwner <;> simp
      · rw [signalState, same x equal]
        exact attentive.counted x
    · have absent : ∀ x ∈ (s.thread u).waitObjects, x ≠ m := by
        rintro x member rfl
        obtain ⟨i, block⟩ := held.named member
        exact unnamed u i block
      refine attentive.quiet u waiting ?_
      have threads : (ksInitializeMutant s t m initialOwner).thread = s.thread := rfl
      rw [threads] at satisfied
      cases kind : (s.thread u).waitType with
      | waitAny =>
        rw [kind] at satisfied
        obtain ⟨x, member, positive⟩ := satisfied
        exact ⟨x, member, by rwa [signalState, same x (absent x member)] at positive⟩
      | waitAll =>
        rw [kind] at satisfied
        refine ⟨satisfied.1, fun x member => ?_⟩
        have positive := satisfied.2 x member
        rwa [signalState, same x (absent x member)] at positive
  | wait t objects waitType => exact attentive.wait heeds step
  | resume t =>
    obtain ⟨ready, fuel, stepped⟩ := step
    cases stepped
    have rest := removeThreadWaitBlocks_rest (s.setThread t { s.thread t with state := .running }) t
    have threads := removeThreadWaitBlocks_thread (s.setThread t { s.thread t with state := .running }) t
    have headers : (finishWait s t).1.header = s.header := rest.1
    refine ⟨⟨agrees, fun x => ?_, fun u => ?_, fun u waiting satisfied => ?_⟩, .resumes headers rest.2.1⟩
    · rw [signalState, headers]
      exact attentive.counted x
    · have thread : (finishWait s t).1.thread u = _ := congrFun threads u
      rw [thread]
      by_cases equal : u = t
      · subst equal
        simp [KThread.waitObjects, threadWaitObjects]
      · simpa [setThread, equal] using attentive.distinct u
    · have thread : (finishWait s t).1.thread u = _ := congrFun threads u
      rw [thread] at waiting satisfied
      by_cases equal : u = t
      · subst equal
        simp [setThread] at waiting
      · simp only [setThread, update_of_ne equal] at waiting satisfied
        exact attentive.quiet u waiting (satisfied.mono fun x => by
          rw [signalState, headers]
          exact id)
  | setEvent | releaseSemaphore | releaseMutant | expireTimer => exact attentive.signal heeds step rfl heeds.1

end Steps

section Returns
variable [DecidableEq Thread] [DecidableEq Object] {s s' : Dispatcher Thread Object} {t : Thread} {o : Object}
  {waiters : Object → List (Thread × Fin 3)} {owned : Thread → List Object}

theorem waitTestLoop_returns {pre post : List (Thread × Fin 3)} (held : Consistent s waiters owned)
    (place : waiters o = pre ++ post) (distinct : (post.map Prod.fst).Nodup) (lit : LitMutant o s)
    (spares : ∀ t, Meets s o s.signalState (post.map Prod.fst) t → Spares s t o) :
    ∃ fuel s', waitTestLoop o fuel (entryAt o post) s = some s' := by
  induction post generalizing s waiters owned pre with
  | nil => exact ⟨1, s, by rw [entryAt, map_nil, headD_nil, waitTestLoop_head]⟩
  | cons b post ih =>
    obtain ⟨t, i⟩ := b
    obtain ⟨once, distinct⟩ := nodup_cons.mp distinct
    have next := flink_next (held.waitRing o) place
    have passed : waiters o = (pre ++ [(t, i)]) ++ post := by simp [place]
    have block : (s.thread t).waitBlock i = some o := held.blocked.mp (by simp [place])
    have entry : entryAt o ((t, i) :: post) = .waitListEntry t i := rfl
    rw [entry]
    by_cases serves : (s.thread t).state = .waiting ∧ ∃ idx, ksiThreadWaitIsSatisfied s t o = some idx
    · obtain ⟨waiting, idx, satisfied⟩ := serves
      have spared := spares t (.here ((held.waitHolds block).mpr ⟨waiting, idx, satisfied⟩))
      have now := held.satisfy satisfied lit spared
      have others : ∀ b ∈ post, b.1 ≠ t := by
        rintro b member rfl
        exact once (mem_map.mpr ⟨b, member, rfl⟩)
      have kept : (post.filter fun b => b.1 ≠ t) = post :=
        filter_eq_self.mpr fun b member => by simpa using others b member
      by_cases goesOn : GoesOn o (ksiSatisfyThreadWait s t idx)
      · have place' : (waiters o).filter (fun b => b.1 ≠ t) = pre.filter (fun b => b.1 ≠ t) ++ post := by
          rw [place, filter_append, filter_cons_of_neg (by simp), kept]
        obtain ⟨fuel, s', ended⟩ := ih now place' distinct goesOn.litMutant fun u meets =>
          held.spares_behind block waiting satisfied goesOn spares u (by rwa [kept])
        refine ⟨fuel + 1, s', ?_⟩
        rw [waitTestLoop_goesOn waiting satisfied goesOn, next]
        exact ended
      · exact ⟨1, ksiSatisfyThreadWait s t idx, waitTestLoop_stops waiting satisfied goesOn i 0⟩
    · obtain ⟨fuel, s', ended⟩ := ih held passed distinct lit fun u meets =>
        spares u (.past (fun serving => serves ((held.waitHolds block).mp serving)) meets)
      refine ⟨fuel + 1, s', ?_⟩
      rw [waitTestLoop_pass fun waiting => Option.eq_none_iff_forall_ne_some.mpr fun idx satisfied =>
        serves ⟨waiting, idx, satisfied⟩, next]
      exact ended

/-- What is released fits into the semaphore. -/
def Fits (s : Dispatcher Thread Object) : DispatcherAction Thread Object → Prop
  | .releaseSemaphore _ o adjustment _ => 0 ≤ adjustment ∧ s.signalState o + adjustment ≤ s.limit o
  | _ => True

theorem Attentive.tested {s₁ : Dispatcher Thread Object} {action : DispatcherAction Thread Object} {tests : Bool}
    (attentive : Attentive s) (change : SignalChange s action o s₁ tests) (spares : MeetsSpare s action) :
    ∃ fuel s', (if tests then testWaiters fuel s₁ o else some s₁) = some s' := by
  obtain ⟨waiters, owned, held⟩ := attentive.agrees
  obtain ⟨owned', now⟩ := held.change change
  by_cases tested : tests
  case neg => exact ⟨0, s₁, if_neg tested⟩
  simp only [if_pos tested]
  by_cases empty : s₁.links.isListEmpty (.waitListHead o)
  · exact ⟨0, s₁, by rw [testWaiters, if_pos empty]⟩
  · have distinct : ((waiters o).map Prod.fst).Nodup := by
      refine List.Nodup.map_on (fun b first c second same => ?_) (held.waiters_nodup o)
      have blockB := held.blocked.mp first
      have blockC := held.blocked.mp second
      rw [held.filled] at blockB blockC
      rw [← same] at blockC
      obtain ⟨small, foundB⟩ := List.getElem?_eq_some_iff.mp blockB
      obtain ⟨small', foundC⟩ := List.getElem?_eq_some_iff.mp blockC
      have index := (attentive.distinct b.1).getElem_inj_iff.mp (foundB.trans foundC.symm)
      exact Prod.ext same (Fin.ext index)
    obtain ⟨fuel, s', ended⟩ := waitTestLoop_returns now (List.nil_append _).symm distinct change.litMutant
      (spares.changed held change tested)
    exact ⟨fuel, s', by rw [testWaiters, if_neg empty, ksWaitTest, flink_first (now.waitRing o), ended]⟩

theorem Attentive.returns {action : DispatcherAction Thread Object} (attentive : Attentive s)
    (callable : Callable s action) (fits : Fits s action) (takes : TakesItsOwn s action) :
    ∃ s', DispatcherStep s action s' := by
  cases action with
  | initializeMutant | wait | resume => exact ⟨_, callable, 0, rfl⟩
  | setEvent t o wait =>
    obtain ⟨fuel, s', ended⟩ := attentive.tested (.event t o wait callable) takes
    by_cases early : (s.header o).type = .eventNotificationObject ∧ s.signalState o = 1 ∧ ¬ wait
    · exact ⟨s, callable, 0, by simp [dispatcherStep, ksSetEvent, early]⟩
    · by_cases zero : s.signalState o = 0
      · simp only [zero, decide_true, if_true] at ended
        exact ⟨_, callable, fuel, by
          simp only [dispatcherStep, ksSetEvent, if_neg early, if_pos zero, ended]
          rfl⟩
      · exact ⟨_, callable, fuel, by
          simp only [dispatcherStep, ksSetEvent, if_neg early, if_neg zero]
          rfl⟩
  | releaseSemaphore t o adjustment wait =>
    obtain ⟨fuel, s', ended⟩ := attentive.tested (.semaphore t o adjustment wait callable fits.1) takes
    have bounds : ¬ (s.limit o < s.signalState o + adjustment ∨
        s.signalState o > s.signalState o + adjustment) := by
      have := fits.1
      have := fits.2
      omega
    by_cases zero : s.signalState o = 0
    · rw [if_pos (decide_eq_true zero)] at ended
      exact ⟨_, callable, fuel, by
        simp only [dispatcherStep, ksReleaseSemaphore, if_neg bounds, if_pos zero, ended]
        rfl⟩
    · exact ⟨_, callable, fuel, by
        simp only [dispatcherStep, ksReleaseSemaphore, if_neg bounds, if_neg zero]
        rfl⟩
  | releaseMutant t o wait =>
    by_cases kind : s.isMutant o
    · by_cases owner : s.ownerThread o = some t
      · obtain ⟨fuel, s', ended⟩ := attentive.tested (.mutant t o wait owner kind) takes
        rw [if_pos rfl] at ended
        exact ⟨_, callable, fuel, by
          simp only [dispatcherStep, ksReleaseMutant, kind, owner, not_true, ne_eq, if_false]
          simp only [surrendered] at ended
          rw [ended]
          rfl⟩
      · exact ⟨s, callable, 0, by simp [dispatcherStep, ksReleaseMutant, kind, owner]⟩
    · exact ⟨s, callable, 0, by simp [dispatcherStep, ksReleaseMutant, kind]⟩
  | expireTimer o =>
    obtain ⟨fuel, s', ended⟩ := attentive.tested (.timer o callable) takes
    exact ⟨s', callable, fuel, ended⟩

end Returns

section Runs
variable [DecidableEq Thread] [DecidableEq Object] {s s' : Dispatcher Thread Object}

omit [DecidableEq Thread] [DecidableEq Object] in
theorem DispatcherBooted.attentive (booted : DispatcherBooted s) (counted : SignalsCounted s) : Attentive s := by
  have none : ∀ t, (s.thread t).waitObjects = [] := fun t => by
    simp [KThread.waitObjects, threadWaitObjects, booted.blocks]
  refine ⟨⟨_, _, booted.held⟩, counted, fun t => by simp [none], fun t _ satisfied => ?_⟩
  rw [none] at satisfied
  cases kind : (s.thread t).waitType with
  | waitAny =>
    rw [kind] at satisfied
    obtain ⟨o, member, -⟩ := satisfied
    cases member
  | waitAll =>
    rw [kind] at satisfied
    exact satisfied.1 rfl

/-- Where every step of a run heeds what the waits ask for, no thread goes on waiting for
what is there, and every step wakes and consumes what it should, and returns. -/
theorem no_lost_wakeup {actions : List (DispatcherAction Thread Object)} (booted : DispatcherBooted s)
    (counted : SignalsCounted s) (run : Transition.Run (Transition.Guarded Heeds DispatcherStep) s actions s') :
    Quiet s' ∧
      (∀ action s'', Heeds s' action → DispatcherStep s' action s'' → Delivers s' s'' action) ∧
      ∀ action, Heeds s' action → Callable s' action → Fits s' action → ∃ s'', DispatcherStep s' action s'' := by
  have attentive : Attentive s' := run.invariant (P := Attentive)
    (fun before step => (before.step step.1 step.2).1) (booted.attentive counted)
  exact ⟨attentive.quiet, fun _ _ heeds step => (attentive.step heeds step).2,
    fun _ heeds callable fits => attentive.returns callable fits heeds.1⟩

end Runs

local instance threeSemaphores : NeZero 3 := ⟨by decide⟩

def semaphores : Dispatcher (Fin 3) (Fin 3) where
  header := fun _ => ⟨.semaphoreObject, 0⟩
  ownerThread := fun _ => none
  limit := fun _ => 2
  thread := fun _ => ⟨.running, fun _ => none, .waitAny, .success, false⟩
  links := ⟨id, id⟩

theorem semaphores_booted : DispatcherBooted semaphores where
  waitLists := fun o => ⟨by simp, rfl, rfl⟩
  mutantLists := fun t => ⟨by simp, rfl, rfl⟩
  kinds := by decide
  owners := fun _ => rfl
  blocks := fun _ _ => rfl

theorem semaphores_counted : SignalsCounted semaphores := fun _ => ⟨Int.le_refl 0, fun other => absurd rfl other⟩

/-- The release of nothing has woken a thread: the count is below zero. -/
def overdrawn : Dispatcher (Fin 3) (Fin 3) :=
  ksiSatisfyThreadWait ((ksWaitForMultipleObjects semaphores 0 [some 0] .waitAny).1.setSignal 0 0) 0 0

/-- The next release leaves a thread waiting for a count that is there. -/
def unattended : Dispatcher (Fin 3) (Fin 3) :=
  (ksWaitForMultipleObjects overdrawn 1 [some 0] .waitAny).1.setSignal 0 1

/-- A release of nothing loses a later wakeup; and a wait that is granted late takes a
mutant that was not signalled. -/
theorem wakeup_lost :
    (∃ (s s' : Dispatcher (Fin 3) (Fin 3)) (actions : List (DispatcherAction (Fin 3) (Fin 3))),
      DispatcherBooted s ∧ SignalsCounted s ∧ Transition.Run DispatcherStep s actions s' ∧ ¬ Quiet s') ∧
    ∃ (s s' s'' : Dispatcher (Fin 3) (Fin 3)) (actions : List (DispatcherAction (Fin 3) (Fin 3)))
      (action : DispatcherAction (Fin 3) (Fin 3)), DispatcherBooted s ∧ SignalsCounted s ∧
        Transition.Run DispatcherStep s actions s' ∧ DispatcherStep s' action s'' ∧ ¬ Delivers s' s'' action := by
  refine ⟨⟨semaphores, unattended, [.wait 0 [some 0] .waitAny, .releaseSemaphore 1 0 0 false,
    .wait 1 [some 0] .waitAny, .releaseSemaphore 2 0 2 false], semaphores_booted, semaphores_counted, ?_, ?_⟩, ?_⟩
  · exact .next ⟨rfl, 0, rfl⟩ (.next (t := overdrawn) ⟨rfl, 5, rfl⟩ (.next ⟨rfl, 0, rfl⟩
      (.single ⟨rfl, 5, rfl⟩)))
  · exact fun quiet => quiet 1 (by decide) ⟨0, by decide, by decide⟩
  · have stolen : (dispatcherStep 5 contended (.releaseMutant 1 0 false)).map (fun s => s.ownerThread 1) =
        some (some 0) := by decide
    obtain ⟨s'', stepped, owner⟩ := Option.map_eq_some_iff.mp stolen
    refine ⟨sampleDispatcher, contended, s'', [.initializeMutant 1 0 true, .initializeMutant 2 1 true,
      .wait 0 [some 0, some 1] .waitAny], .releaseMutant 1 0 false, sampleDispatcher_booted, ?_, ?_,
      ⟨rfl, 5, stepped⟩, fun delivers => ?_⟩
    · exact fun o => ⟨Int.le_refl 0, fun _ => Int.zero_le_ofNat 1⟩
    · exact .next ⟨rfl, 0, rfl⟩ (.next ⟨rfl, 0, rfl⟩ (.single ⟨rfl, 0, rfl⟩))
    · cases delivers with
      | idle idle same =>
        rw [same] at owner
        exact absurd owner (by decide)
      | signal change grants noted =>
        rename_i s₁ s₂ tests
        -- No grant takes a mutant that is not signalled.
        have kept : ∀ a b : Dispatcher (Fin 3) (Fin 3), Relation.ReflTransGen (fun a b => ∃ t, Grant a b t) a b →
            a.signalState 1 = 0 → a.ownerThread 1 = some 2 → b.ownerThread 1 = some 2 := by
          intro a b chain
          induction chain using Relation.ReflTransGen.head_induction_on with
          | refl => exact fun _ owner => owner
          | head first rest ih =>
            intro zero owner
            obtain ⟨t, -, -, ⟨used, chooses, takes⟩, -⟩ := first
            have outside : (1 : Fin 3) ∉ used := fun member => by
              have := chooses.signalled 1 member
              omega
            refine ih ?_ ?_
            · rw [takes.signals, if_neg outside, zero]
            · rw [takes.owners, if_neg fun both => outside both.1, owner]
        have same : s''.ownerThread = s₂.ownerThread := by
          rcases noted with ⟨t, wait, rfl⟩ | rfl
          · exact (setWaitNext_rest s₂ t wait).2.1
          · rfl
        cases change with
        | mutant t o wait owned kind =>
          have held := kept _ _ grants (by decide) (by decide)
          rw [same, held] at owner
          cases owner

/-- Two threads wait for a semaphore, and a release of one wakes the first of them. -/
def twoWaiters : Dispatcher (Fin 3) (Fin 3) :=
  (ksWaitForMultipleObjects (ksWaitForMultipleObjects semaphores 0 [some 0] .waitAny).1 1 [some 0, some 1] .waitAny).1

theorem no_lost_wakeup_semaphores : ∃ s : Dispatcher (Fin 3) (Fin 3),
    Quiet s ∧ (s.thread 0).state = .ready ∧ (s.thread 1).state = .waiting ∧
    s.signalState 0 = 0 := by
  have woken : (dispatcherStep 5 twoWaiters (.releaseSemaphore 2 0 1 false)).map
      (fun s => ((s.thread 0).state, (s.thread 1).state, s.signalState 0)) = some (.ready, .waiting, 0) := by decide
  obtain ⟨s, stepped, states⟩ := Option.map_eq_some_iff.mp woken
  obtain ⟨first, rest⟩ := Prod.mk.inj states
  obtain ⟨second, signal⟩ := Prod.mk.inj rest
  have unowned : ∀ o, twoWaiters.isMutant o = false := by decide
  have spares : MeetsSpare twoWaiters (.releaseSemaphore 2 0 1 false) := by
    intro o s₁ tests _ _ listed _ t _
    have none : (twoWaiters.thread t).waitObjects.filter twoWaiters.isMutant = [] :=
      filter_eq_nil_iff.mpr fun o _ => by rw [unowned o]; exact Bool.false_ne_true
    rw [Spares, none]
    split
    next => exact .inl rfl
    next => exact nodup_nil
  have run : Transition.Run (Transition.Guarded Heeds DispatcherStep) semaphores [.wait 0 [some 0] .waitAny,
      .wait 1 [some 0, some 1] .waitAny, .releaseSemaphore 2 0 1 false] s :=
    .next ⟨⟨meetsSpare_wait, by decide⟩, rfl, 0, rfl⟩ <| .next ⟨⟨meetsSpare_wait, by decide⟩, rfl, 0, rfl⟩ <|
      .single ⟨⟨spares, fun zero => absurd zero (by decide)⟩, rfl, 5, stepped⟩
  exact ⟨s, (no_lost_wakeup semaphores_booted semaphores_counted run).1, first, second, signal⟩

end VeaOS.Ks
