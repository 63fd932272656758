import VeaOS.Ks.WaitTest

/-! Every operation of the dispatcher keeps the lists, the owners and the signals
of the mutants in agreement, where the waits it grants take no mutant that they
should not. -/
namespace VeaOS.Ks
open Foundation Dispatcher Function List ListEntry
variable {Thread Object : Type} [DecidableEq Thread] [DecidableEq Object]
  {s s' : Dispatcher Thread Object} {t : Thread} {o m : Object}
  {waiters : Object → List (Thread × Fin 3)} {owned : Thread → List Object}

/-- There are lists with which everything agrees. -/
def Agrees (s : Dispatcher Thread Object) : Prop := ∃ waiters owned, Consistent s waiters owned

section Signals

theorem WalkRule.testWaiters {Lit : Dispatcher Thread Object → Prop}
    {Rest : Dispatcher Thread Object → List (Thread × Fin 3) → Prop} (rule : WalkRule o Lit Rest)
    {fuel : Nat} (held : Consistent s waiters owned) (lit : Lit s) (rest : Rest s (waiters o))
    (tested : testWaiters fuel s o = some s')
    (spares : ∀ t, Meets s o s.signalState ((waiters o).map Prod.fst) t → Spares s t o) :
    Agrees s' ∧ Relation.ReflTransGen (Granted Lit o) s s' ∧
      (Rest s' [] ∨ ∃ post, Rest s' post ∧ ¬ GoesOn o s') := by
  unfold Ks.testWaiters at tested
  have empty := (held.waitRing o).isListEmpty
  split at tested
  · rename_i none
    cases tested
    rw [none, eq_comm, List.isEmpty_iff, List.map_eq_nil_iff] at empty
    rw [empty] at rest
    exact ⟨⟨waiters, owned, held⟩, .refl, .inl rest⟩
  · rw [ksWaitTest, flink_first (held.waitRing o)] at tested
    exact rule.loop held (List.nil_append _).symm tested lit rest spares

omit [DecidableEq Thread] in
theorem setSignal_signalState (s : Dispatcher Thread Object) (o x : Object) (v : Int) :
    (s.setSignal o v).signalState x = if x = o then v else s.signalState x := by
  by_cases same : x = o
  · subst same
    simp [signalState, setSignal]
  · simp [signalState, setSignal, same]

omit [DecidableEq Thread] in
theorem setSignal_type (s : Dispatcher Thread Object) (o x : Object) (v : Int) :
    ((s.setSignal o v).header x).type = (s.header x).type := by
  by_cases same : x = o
  · subst same
    simp [setSignal]
  · simp [setSignal, same]

omit [DecidableEq Thread] in
theorem setSignal_isMutant (s : Dispatcher Thread Object) (o : Object) (v : Int) :
    (s.setSignal o v).isMutant = s.isMutant := by
  funext x
  simp [isMutant, setSignal_type]

omit [DecidableEq Thread] in
theorem Consistent.setSignal (held : Consistent s waiters owned) (other : ¬ s.isMutant o) (v : Int) :
    Consistent (s.setSignal o v) waiters owned := by
  refine held.congr rfl rfl (setSignal_isMutant s o v) (fun m mutant => ?_) (fun _ => rfl) fun _ => id
  rw [setSignal_signalState, if_neg]
  rintro rfl
  exact other mutant

omit [DecidableEq Object] in
theorem setWaitNext_rest (s : Dispatcher Thread Object) (t : Thread) (wait : Bool) :
    (s.setWaitNext t wait).links = s.links ∧ (s.setWaitNext t wait).ownerThread = s.ownerThread ∧
    (s.setWaitNext t wait).header = s.header := by
  unfold setWaitNext
  split <;> exact ⟨rfl, rfl, rfl⟩

omit [DecidableEq Object] in
theorem setWaitNext_thread (s : Dispatcher Thread Object) (t u : Thread) (wait : Bool) :
    ((s.setWaitNext t wait).thread u).waitBlock = (s.thread u).waitBlock ∧
    ((s.setWaitNext t wait).thread u).state = (s.thread u).state ∧
    ((s.setWaitNext t wait).thread u).waitType = (s.thread u).waitType := by
  unfold setWaitNext
  split
  · by_cases same : u = t
    · subst same
      simp [setThread]
    · simp [setThread, same]
  · exact ⟨rfl, rfl, rfl⟩

omit [DecidableEq Object] in
theorem Consistent.setWaitNext (held : Consistent s waiters owned) (t : Thread) (wait : Bool) :
    Consistent (s.setWaitNext t wait) waiters owned := by
  obtain ⟨links, owners, headers⟩ := setWaitNext_rest s t wait
  refine held.congr links owners ?_ (fun m _ => ?_) (fun u => (setWaitNext_thread s t u wait).1)
    fun u => ?_
  · funext m
    rw [isMutant, isMutant, headers]
  · rw [signalState, signalState, headers]
  · rw [(setWaitNext_thread s t u wait).2.1]
    exact id

/-- The owner gives the mutant up, before its waiters are tested. -/
def surrendered (s : Dispatcher Thread Object) (m : Object) : Dispatcher Thread Object :=
  { s with
    links := s.links.removeEntryList (.mutantListEntry m)
    ownerThread := Function.update s.ownerThread m none }.setSignal m 1

theorem Consistent.surrender (held : Consistent s waiters owned) (owner : s.ownerThread m = some t) :
    Consistent (surrendered s m) waiters (Function.update owned t ((owned t).erase m)) := by
  have member := held.owns.mpr owner
  have entry : (ListEntry.mutantListEntry m : ListEntry Thread Object) ∈ (owned t).map .mutantListEntry :=
    List.mem_map_of_mem member
  have owners : ∀ x, (surrendered s m).ownerThread x = if x = m then none else s.ownerThread x := by
    intro x
    by_cases same : x = m <;> simp [surrendered, Dispatcher.setSignal, same]
  have kinds : (surrendered s m).isMutant = s.isMutant := setSignal_isMutant _ _ _
  refine { waitRing := fun o => ?_, mutantRing := fun u => ?_, blocked := held.blocked, owns := ?_,
           typed := ?_, signal := ?_, filled := held.filled, idle := held.idle }
  · exact (held.mutantRing t).remove_apart entry (held.waitRing o)
      (Lines.wait_mutant_apart waiters owned o t)
  · by_cases same : u = t
    · subst same
      obtain ⟨front, back, split, before⟩ := List.eq_append_cons_of_mem member
      have ring := held.mutantRing u
      rw [split, List.map_append, List.map_cons] at ring
      rw [Function.update_self, split, List.erase_append_right _ before, List.erase_cons_head,
        List.map_append]
      exact ring.remove
    · rw [Function.update_of_ne same]
      exact (held.mutantRing t).remove_apart entry (held.mutantRing u) (held.mutant_apart same)
  · intro u x
    rw [owners]
    have owns := held.owns (t := u) (m := x)
    by_cases thread : u = t
    · subst thread
      rw [Function.update_self, (held.owned_nodup u).mem_erase_iff, owns]
      by_cases same : x = m <;> simp [same]
    · rw [Function.update_of_ne thread, owns]
      by_cases same : x = m
      · subst same
        simp [owner, Ne.symm thread]
      · simp [same]
  · intro x u
    rw [owners, kinds]
    split
    · rintro ⟨⟩
    · exact held.typed
  · intro x mutant
    rw [kinds] at mutant
    rw [owners, surrendered, setSignal_signalState]
    by_cases same : x = m
    · simp [same]
    · rw [if_neg same, if_neg same]
      exact held.signal mutant

end Signals

section Initialization

theorem Consistent.initializeMutant (held : Consistent s waiters owned) (free : s.ownerThread m = none)
    (unnamed : ∀ u i, (s.thread u).waitBlock i ≠ some m) (t : Thread) (initialOwner : Bool) :
    Agrees (ksInitializeMutant s t m initialOwner) := by
  have nobody : waiters m = [] := by
    refine eq_nil_iff_forall_not_mem.mpr fun b member => ?_
    exact unnamed b.1 b.2 (held.blocked.mp member)
  have unowned : ∀ u, m ∉ owned u := fun u member => by
    rw [held.owns.mp member] at free
    cases free
  have waits : ∀ o, mutantListEntry m ∉
      (waitListHead o : ListEntry Thread Object) :: (waiters o).map waitEntry := by
    intro o member
    rcases mem_cons.mp member with same | member
    · cases same
    · obtain ⟨b, -, same⟩ := mem_map.mp member
      cases same
  have mutants : ∀ u, mutantListEntry m ∉
      mutantListHead u :: (owned u).map mutantListEntry := by
    intro u member
    rcases mem_cons.mp member with same | member
    · cases same
    · obtain ⟨x, inside, same⟩ := mem_map.mp member
      exact unowned u (mutantListEntry.inj same ▸ inside)
  have heads : ∀ u, waitListHead m ∉
      mutantListHead u :: (owned u).map mutantListEntry := by
    intro u member
    rcases mem_cons.mp member with same | member
    · cases same
    · obtain ⟨x, -, same⟩ := mem_map.mp member
      cases same
  have unheld : Consistent (ksInitializeMutant s t m false) waiters owned := by
    have kinds : ∀ x, (ksInitializeMutant s t m false).isMutant x = (decide (x = m) || s.isMutant x) := by
      intro x
      by_cases same : x = m <;> simp [isMutant, ksInitializeMutant, same]
    have owners : (ksInitializeMutant s t m false).ownerThread = s.ownerThread := by
      funext x
      by_cases same : x = m <;> simp [ksInitializeMutant, same, free]
    refine { waitRing := fun o => ?_, mutantRing := fun u => ?_, blocked := held.blocked, owns := ?_,
             typed := ?_, signal := ?_, filled := held.filled, idle := held.idle }
    · by_cases same : o = m
      · subst same
        rw [nobody]
        exact RingLinks.ring_initialize _ _
      · refine ((held.waitRing o).initialize_apart (waits o)).initialize_apart fun member => ?_
        rcases mem_cons.mp member with equal | member
        · exact same (waitListHead.inj equal).symm
        · obtain ⟨b, -, equal⟩ := mem_map.mp member
          cases equal
    · exact ((held.mutantRing u).initialize_apart (mutants u)).initialize_apart (heads u)
    · intro u x
      rw [owners]
      exact held.owns
    · intro x u
      rw [owners, kinds]
      intro owner
      simp [held.typed owner]
    · intro x mutant
      rw [owners]
      by_cases same : x = m
      · subst same
        simp [signalState, ksInitializeMutant, free]
      · rw [kinds] at mutant
        have signal : (ksInitializeMutant s t m false).signalState x = s.signalState x := by
          simp [signalState, ksInitializeMutant, same]
        rw [signal]
        exact held.signal (by simpa [same] using mutant)
  cases initialOwner with
  | false => exact ⟨_, _, unheld⟩
  | true =>
    have mutant : (ksInitializeMutant s t m false).isMutant m := by
      simp [isMutant, ksInitializeMutant]
    have nobodys : (ksInitializeMutant s t m false).ownerThread m = none := by
      simp [ksInitializeMutant]
    have kinds : ((ksInitializeMutant s t m false).consume [m]).isMutant m := by
      rwa [consume_isMutant]
    have granted := unheld.grant t [m] [m] (by simp [mutant])
      (fun x member _ => by rwa [mem_singleton.mp member])
      fun x _ => by
        by_cases same : x = m
        · simp [same]
        · simp [same, Ne.symm same]
    refine ⟨_, _, granted.congr ?_ ?_ ?_ (fun x isMutant => ?_) (fun _ => ?_) fun _ => ?_⟩
    · rw [assignOwners, foldl_cons, foldl_nil, ksiAssignMutantOwner, if_pos kinds]
      rfl
    · rw [assignOwners, foldl_cons, foldl_nil, ksiAssignMutantOwner, if_pos kinds]
      simp [ksInitializeMutant, consume]
    · rw [granted_isMutant]
      funext x
      by_cases same : x = m <;> simp [isMutant, ksInitializeMutant, same]
    · rw [granted_isMutant] at isMutant
      rw [granted_signalState, if_neg (mutant_not_notification isMutant)]
      by_cases same : x = m
      · simp [signalState, ksInitializeMutant, same]
      · simp [signalState, ksInitializeMutant, same, Ne.symm same]
    · rw [assignOwners_thread]
      rfl
    · rw [assignOwners_thread]
      exact id

end Initialization

section Waits

/-- The wait has begun: the lock that an earlier operation may have kept is this wait's. -/
def begun (s : Dispatcher Thread Object) (t : Thread) : Dispatcher Thread Object :=
  s.setThread t { s.thread t with waitNext := false }

/-- The blocks of the thread name the objects and are on their wait lists. -/
def parked (s : Dispatcher Thread Object) (t : Thread) (objects : List Object) (waitType : KWaitType) :
    Dispatcher Thread Object :=
  let s := (objects.zip threadWaitObjects).foldl (insertWaitBlock t) (begun s t)
  s.setThread t { s.thread t with waitType := waitType, waitStatus := .pending, state := .waiting }

/-- What a wait does: nothing, or it is granted at once, or the thread is parked. -/
inductive Waits (s : Dispatcher Thread Object) (t : Thread) (objects : List (Option Object))
    (waitType : KWaitType) : Dispatcher Thread Object → Prop where
  | refused : Waits s t objects waitType s
  | granted (listed : List Object) (signaledIndex : Nat) (all : objects.mapM id = some listed)
      (signalled : ksiAreObjectsSignaled s listed waitType = some signaledIndex) :
      Waits s t objects waitType (assignOwners ((begun s t).consume (satisfying listed signaledIndex waitType)) t
        (satisfying listed signaledIndex waitType))
  | parks (listed : List Object) (all : objects.mapM id = some listed) (filled : listed ≠ [])
      (bound : listed.length ≤ 3)
      (unsignalled : ksiAreObjectsSignaled s listed waitType = none) :
      Waits s t objects waitType (parked s t listed waitType)

omit [DecidableEq Object] in
theorem mapM_id_length {objects : List (Option Object)} {listed : List Object}
    (all : objects.mapM id = some listed) : listed.length = objects.length := by
  induction objects generalizing listed with
  | nil => cases all; rfl
  | cons o rest ih =>
    simp only [mapM_cons, id_eq, Option.bind_eq_bind, Option.bind_eq_some_iff, Option.pure_def,
      Option.some.injEq] at all
    obtain ⟨x, -, xs, tail, rfl⟩ := all
    simp [ih tail]

theorem waitForMultipleObjects_waits (s : Dispatcher Thread Object) (t : Thread)
    (objects : List (Option Object)) (waitType : KWaitType) :
    Waits s t objects waitType (ksWaitForMultipleObjects s t objects waitType).1 := by
  unfold ksWaitForMultipleObjects
  split
  · exact .refused
  · rename_i bound
    split
    · exact .refused
    · rename_i listed all
      have same : ksiAreObjectsSignaled (begun s t) listed waitType =
          ksiAreObjectsSignaled s listed waitType := rfl
      simp only [consumeObjectSignals_eq]
      have length := mapM_id_length all
      split
      · rename_i idx signalled
        have granted := Waits.granted (s := s) (t := t) listed idx all (same.symm.trans signalled)
        cases waitType with
        | waitAny =>
          refine cast ?_ granted
          congr 1
          cases chosen : listed[idx]? <;> simp [satisfying, chosen, assignOwners, begun]
        | waitAll => exact granted
      · rename_i unsignalled
        refine .parks listed all ?_ (by omega) (same.symm.trans unsignalled)
        rintro rfl
        simp only [length_nil] at length
        omega

theorem Lines.insertWaitBlock (lines : Lines s waiters owned) {i : Fin 3}
    (unused : (s.thread t).waitBlock i = none) (o : Object) :
    Lines (insertWaitBlock t s (o, i)) (update waiters o (waiters o ++ [(t, i)])) owned := by
  have absent : ∀ o, (t, i) ∉ waiters o := fun o member => by
    rw [lines.blocked.mp member] at unused
    cases unused
  have waits : ∀ o, waitListEntry t i ∉
      (waitListHead o : ListEntry Thread Object) :: (waiters o).map waitEntry := by
    intro o member
    rcases mem_cons.mp member with same | member
    · cases same
    · obtain ⟨b, inside, same⟩ := mem_map.mp member
      have same : b = (t, i) := waitEntry_injective same
      subst same
      exact absent o inside
  have mutants : ∀ u, waitListEntry t i ∉
      mutantListHead u :: (owned u).map mutantListEntry := by
    intro u member
    rcases mem_cons.mp member with same | member
    · cases same
    · obtain ⟨x, -, same⟩ := mem_map.mp member
      cases same
  have ready := fun x => (lines.waitRing x).initialize_apart (waits x)
  refine ⟨fun x => ?_, fun u => ?_, fun {x u j} => ?_, lines.owns⟩
  · by_cases same : x = o
    · subst same
      rw [update_self, map_append]
      exact (ready x).insertTail (waits x)
    · rw [update_of_ne same]
      refine (ready o).insertTail_apart (ready x) fun y member =>
        ⟨lines.wait_apart same y member, ?_⟩
      rintro rfl
      exact waits x member
  · refine (ready o).insertTail_apart ((lines.mutantRing u).initialize_apart (mutants u)) fun y member =>
      ⟨fun found => Lines.wait_mutant_apart waiters owned o u y found member, ?_⟩
    rintro rfl
    exact mutants u member
  · have blocked := lines.blocked (o := x) (t := u) (i := j)
    have block : ((Ks.insertWaitBlock t s (o, i)).thread u).waitBlock j =
        if u = t ∧ j = i then some o else (s.thread u).waitBlock j := by
      by_cases thread : u = t
      · subst thread
        by_cases index : j = i <;> simp [Ks.insertWaitBlock, setThread, KThread.setBlock, index]
      · simp [Ks.insertWaitBlock, setThread, thread]
    rw [block]
    by_cases here : u = t ∧ j = i
    · obtain ⟨rfl, rfl⟩ := here
      by_cases same : x = o
      · simp [same]
      · simp [same, absent x, Ne.symm same]
    · rw [if_neg here, ← blocked]
      have other : (u, j) ≠ (t, i) := fun same => here (Prod.mk.inj same)
      by_cases same : x = o <;> simp [same, other]

/-- The wait lists got blocks of the thread at their ends. -/
def Appends (t : Thread) (waiters waiters' : Object → List (Thread × Fin 3)) : Prop :=
  ∀ o, ∃ back, waiters' o = waiters o ++ back ∧ ∀ b ∈ back, b.1 = t

theorem insertWaitBlocks (blocks : List (Object × Fin 3)) (distinct : (blocks.map Prod.snd).Nodup)
    (lines : Lines s waiters owned) (unused : ∀ b ∈ blocks, (s.thread t).waitBlock b.2 = none) :
    (∃ waiters', Lines (blocks.foldl (insertWaitBlock t) s) waiters' owned ∧ Appends t waiters waiters') ∧
    (blocks.foldl (insertWaitBlock t) s).header = s.header ∧
    (blocks.foldl (insertWaitBlock t) s).ownerThread = s.ownerThread ∧
    (blocks.foldl (insertWaitBlock t) s).limit = s.limit ∧
    (blocks.foldl (insertWaitBlock t) s).thread = update s.thread t
      { s.thread t with
        waitBlock := blocks.foldl (fun f b => update f b.2 (some b.1)) (s.thread t).waitBlock } := by
  induction blocks generalizing s waiters with
  | nil =>
    have same : Appends t waiters waiters := fun o => ⟨[], (append_nil _).symm, nofun⟩
    exact ⟨⟨waiters, lines, same⟩, rfl, rfl, rfl, (update_eq_self t s.thread).symm⟩
  | cons b rest ih =>
    obtain ⟨outside, distinct⟩ := nodup_cons.mp distinct
    have blockB : ∀ j, ((insertWaitBlock t s b).thread t).waitBlock j =
        if j = b.2 then some b.1 else (s.thread t).waitBlock j := by
      intro j
      by_cases same : j = b.2 <;> simp [insertWaitBlock, setThread, KThread.setBlock, same]
    have inserted := ih distinct (lines.insertWaitBlock (unused b mem_cons_self) b.1) fun c member => by
      have other : c.2 ≠ b.2 := fun same => outside (mem_map.mpr ⟨c, member, same⟩)
      rw [blockB, if_neg other]
      exact unused c (mem_cons_of_mem _ member)
    obtain ⟨⟨waiters', lines', appended⟩, header, owners, limit, thread⟩ := inserted
    refine ⟨⟨waiters', lines', fun o => ?_⟩, header, owners, limit, thread.trans ?_⟩
    · obtain ⟨back, behind, own⟩ := appended o
      by_cases same : o = b.1
      · subst same
        refine ⟨(t, b.2) :: back, ?_, fun c member => ?_⟩
        · rw [behind, update_self, append_assoc, singleton_append]
        · rcases mem_cons.mp member with rfl | inside
          · rfl
          · exact own c inside
      · exact ⟨back, by rw [behind, update_of_ne same], own⟩
    · simp [insertWaitBlock, setThread, KThread.setBlock]

omit [DecidableEq Thread] [DecidableEq Object] in
theorem park_waitBlock {objects : List Object} (bound : objects.length ≤ 3) (i : Fin 3) :
    (objects.zip threadWaitObjects).foldl
      (fun (f : Fin 3 → Option Object) b => update f b.2 (some b.1)) (fun _ => none) i =
      objects[i.val]? := by
  match objects, bound with
  | [], _ => simp
  | [a], _ | [a, b], _ | [a, b, c], _ =>
    rcases (by omega : i = 0 ∨ i = 1 ∨ i = 2) with rfl | rfl | rfl <;> simp [threadWaitObjects, update]

omit [DecidableEq Thread] [DecidableEq Object] in
theorem waitObjects_eq {k : KThread Object} {objects : List Object} (bound : objects.length ≤ 3)
    (blocks : ∀ i : Fin 3, k.waitBlock i = objects[i.val]?) : k.waitObjects = objects := by
  match objects, bound with
  | [], _ | [a], _ | [a, b], _ | [a, b, c], _ => simp [KThread.waitObjects, threadWaitObjects, blocks]

omit [DecidableEq Object] in
theorem Consistent.begun (held : Consistent s waiters owned) (t : Thread) : Consistent (begun s t) waiters owned := by
  have threads : ∀ u, ((Ks.begun s t).thread u).waitBlock = (s.thread u).waitBlock ∧
      ((Ks.begun s t).thread u).state = (s.thread u).state := by
    intro u
    by_cases same : u = t
    · subst same
      simp [Ks.begun, setThread]
    · simp [Ks.begun, setThread, same]
  exact held.congr rfl rfl rfl (fun _ _ => rfl) (fun u => (threads u).1) fun u => by
    rw [(threads u).2]
    exact id

omit [DecidableEq Thread] [DecidableEq Object] in
theorem waitBlocks_distinct {objects : List Object} (bound : objects.length ≤ 3) :
    ((objects.zip threadWaitObjects).map Prod.snd).Nodup := by
  rcases objects with _ | ⟨_, _ | ⟨_, _ | ⟨_, _ | ⟨_, _⟩⟩⟩⟩
  · simp
  · simp [threadWaitObjects]
  · simp [threadWaitObjects]
  · simp [threadWaitObjects]
  · simp only [length_cons] at bound
    omega

theorem Consistent.parking (held : Consistent s waiters owned) (running : (s.thread t).state = .running)
    {objects : List Object} (bound : objects.length ≤ 3) (waitType : KWaitType) :
    (∃ waiters', Lines (parked s t objects waitType) waiters' owned ∧ Appends t waiters waiters') ∧
    (parked s t objects waitType).header = s.header ∧
    (parked s t objects waitType).ownerThread = s.ownerThread ∧
    (parked s t objects waitType).limit = s.limit ∧
    (parked s t objects waitType).thread = update s.thread t
      ⟨.waiting, fun i => objects[i.val]?, waitType, .pending, false⟩ := by
  have idle : ((Ks.begun s t).thread t).waitBlock = fun _ => none := by
    funext i
    exact (held.begun t).idle (by simp [Ks.begun, setThread, running]) i
  obtain ⟨⟨waiters', lines, appended⟩, header, owners, limit, thread⟩ :=
    insertWaitBlocks _ (waitBlocks_distinct bound) (held.begun t).toLines fun b _ => congrFun idle b.2
  rw [idle, funext (park_waitBlock bound)] at thread
  refine ⟨⟨waiters', lines.congr rfl (fun u => ?_) rfl, appended⟩, header, owners, limit, ?_⟩
  · by_cases same : u = t
    · subst same
      simp [parked, setThread]
    · simp [parked, setThread, same]
  · simp only [parked, setThread]
    rw [thread]
    simp [Ks.begun, setThread]

theorem Consistent.park (held : Consistent s waiters owned) (running : (s.thread t).state = .running)
    {objects : List Object} (bound : objects.length ≤ 3) (waitType : KWaitType) :
    ∃ waiters', Consistent (parked s t objects waitType) waiters' owned ∧ Appends t waiters waiters' := by
  obtain ⟨⟨waiters', lines, appended⟩, header, owners, -, thread⟩ := held.parking running bound waitType
  have mutants : (parked s t objects waitType).isMutant = s.isMutant := by
    funext m
    rw [isMutant, header]
    rfl
  have blocks : ∀ u, ((parked s t objects waitType).thread u).waitBlock =
      if u = t then fun i => objects[i.val]? else (s.thread u).waitBlock := by
    intro u
    rw [thread]
    by_cases same : u = t
    · subst same
      simp
    · simp [same]
  refine ⟨waiters', { toLines := lines, typed := ?_, signal := ?_,
                      filled := fun u i => ?_, idle := fun {u} awake i => ?_ }, appended⟩
  · intro m u
    rw [mutants, owners]
    exact held.typed
  · intro m mutant
    rw [mutants] at mutant
    rw [signalState, header, owners]
    exact held.signal mutant
  · by_cases same : u = t
    · subst same
      have own : ∀ j : Fin 3, ((parked s u objects waitType).thread u).waitBlock j = objects[j.val]? := by
        intro j
        rw [blocks, if_pos rfl]
      rw [waitObjects_eq bound own, own]
    · rw [KThread.waitObjects, blocks, if_neg same]
      exact held.filled u i
  · rw [thread] at awake ⊢
    by_cases same : u = t
    · subst same
      simp at awake
    · simp only [update_of_ne same] at awake ⊢
      exact held.idle awake i

theorem Consistent.grantAtOnce (held : Consistent s waiters owned) (t : Thread) {objects : List Object}
    (distinct : (objects.filter s.isMutant).Nodup)
    (signalled : ∀ m ∈ objects, s.isMutant m → 0 < s.signalState m) :
    Consistent (assignOwners ((Ks.begun s t).consume objects) t objects) waiters
      (update owned t (owned t ++ objects.filter s.isMutant)) := by
  refine (held.begun t).grant t objects objects distinct (fun m member mutant => ?_) fun m mutant => ?_
  · have positive := signalled m member mutant
    by_contra owner
    have owner : ¬ s.ownerThread m = none := owner
    rw [held.signal mutant, if_neg owner] at positive
    omega
  · by_cases member : m ∈ objects
    · rw [if_pos member, ← count_filter (p := s.isMutant) mutant]
      exact count_eq_one_of_mem distinct (mem_filter.mpr ⟨member, mutant⟩)
    · rw [if_neg member, count_eq_zero_of_not_mem member]

omit [DecidableEq Object] in
theorem wakeThread_awake (awake : (s.thread t).state ≠ .waiting) : s.wakeThread t = s := by
  simp [wakeThread, setThread, KThread.ptWakeThread, awake]

theorem Consistent.resume (held : Consistent s waiters owned) (ready : (s.thread t).state = .ready) :
    Consistent (finishWait s t).1 (fun o => (waiters o).filter fun b => b.1 ≠ t) owned := by
  have running : Consistent (s.setThread t { s.thread t with state := .running }) waiters owned := by
    refine held.congr rfl rfl rfl (fun _ _ => rfl) (fun u => ?_) fun u awake => ?_
    · by_cases same : u = t
      · subst same
        simp [setThread]
      · simp [setThread, same]
    · by_cases same : u = t
      · subst same
        simp [ready]
      · simpa [setThread, same] using awake
  have left := running.leave t
  rw [wakeThread_awake (by simp [removeThreadWaitBlocks_thread, setThread])] at left
  exact left

end Waits
section Actions

/-- The object whose signal the action gives. -/
def DispatcherAction.signals : DispatcherAction Thread Object → Option Object
  | .setEvent _ o _ | .releaseSemaphore _ o _ _ | .releaseMutant _ o _ | .expireTimer o => some o
  | _ => none

/-- How an action changes the object that it signals, and whether the waiters are tested then. -/
inductive SignalChange (s : Dispatcher Thread Object) :
    DispatcherAction Thread Object → Object → Dispatcher Thread Object → Bool → Prop where
  | event (t : Thread) (o : Object) (wait : Bool) (type : (s.header o).type = .eventNotificationObject ∨
      (s.header o).type = .eventSynchronizationObject) :
      SignalChange s (.setEvent t o wait) o (s.setSignal o 1) (decide (s.signalState o = 0))
  | semaphore (t : Thread) (o : Object) (adjustment : Int) (wait : Bool)
      (type : (s.header o).type = .semaphoreObject) (grows : 0 ≤ adjustment) :
      SignalChange s (.releaseSemaphore t o adjustment wait) o (s.setSignal o (s.signalState o + adjustment))
        (decide (s.signalState o = 0))
  | timer (o : Object) (type : (s.header o).type = .timerSynchronizationObject) :
      SignalChange s (.expireTimer o) o (s.setSignal o 1) true
  | mutant (t : Thread) (o : Object) (wait : Bool) (owner : s.ownerThread o = some t) (kind : s.isMutant o) :
      SignalChange s (.releaseMutant t o wait) o (surrendered s o) true

/-- The waits that the test meets after the action's signal each take no mutant that
they should not. -/
def MeetsSpare (s : Dispatcher Thread Object) (action : DispatcherAction Thread Object) : Prop :=
  ∀ o s₁ tests, SignalChange s action o s₁ tests → tests →
    ∀ listed : List (Thread × Fin 3), s.links.Ring (.waitListHead o) (listed.map waitEntry) →
      ∀ t, Meets s₁ o s₁.signalState (listed.map Prod.fst) t → Spares s t o

theorem meetsSpare_wait {objects : List (Option Object)} : MeetsSpare s (.wait t objects waitType) := by
  intro o s₁ tests change
  cases change

/-- The action does nothing: the event is signalled, or the mutant is not the caller's. -/
inductive Idle (s : Dispatcher Thread Object) : DispatcherAction Thread Object → Prop where
  | event (t : Thread) (o : Object) (type : (s.header o).type = .eventNotificationObject)
      (signalled : s.signalState o = 1) : Idle s (.setEvent t o false)
  | mutant (t : Thread) (o : Object) (wait : Bool) (foreign : s.isMutant o → s.ownerThread o ≠ some t) :
      Idle s (.releaseMutant t o wait)

theorem signal_cases {action : DispatcherAction Thread Object} (step : DispatcherStep s action s')
    (signals : action.signals = some o) : Idle s action ∧ s' = s ∨
      ∃ fuel s₁ s₂ tests, SignalChange s action o s₁ tests ∧
        (if tests then testWaiters fuel s₁ o else some s₁) = some s₂ ∧
        ((∃ t wait, s' = s₂.setWaitNext t wait) ∨ s' = s₂) := by
  obtain ⟨callable, fuel, stepped⟩ := step
  cases action with
  | initializeMutant | wait | resume => cases signals
  | setEvent t event wait =>
    cases signals
    simp only [dispatcherStep, ksSetEvent] at stepped
    split at stepped
    · rename_i early
      cases stepped
      obtain ⟨type, signalled, noWait⟩ := early
      have off : wait = false := by simpa using noWait
      subst off
      exact .inl ⟨.event t o type signalled, rfl⟩
    · simp only [Option.map_map, Option.map_eq_some_iff] at stepped
      obtain ⟨s₂, tested, rfl⟩ := stepped
      exact .inr ⟨fuel, _, s₂, _, .event t o wait callable, by simpa using tested, .inl ⟨t, wait, rfl⟩⟩
  | releaseSemaphore t semaphore adjustment wait =>
    cases signals
    simp only [dispatcherStep, ksReleaseSemaphore] at stepped
    split at stepped
    · cases stepped
    · rename_i bounds
      simp only [Option.map_map, Option.map_eq_some_iff] at stepped
      obtain ⟨s₂, tested, rfl⟩ := stepped
      exact .inr ⟨fuel, _, s₂, _, .semaphore t o adjustment wait callable (by omega),
        by simpa using tested, .inl ⟨t, wait, rfl⟩⟩
  | releaseMutant t mutant wait =>
    cases signals
    simp only [dispatcherStep, ksReleaseMutant] at stepped
    split at stepped
    · rename_i kind
      cases stepped
      exact .inl ⟨.mutant t o wait fun isMutant => absurd isMutant kind, rfl⟩
    · rename_i kind
      split at stepped
      · rename_i foreign
        cases stepped
        exact .inl ⟨.mutant t o wait fun _ => foreign, rfl⟩
      · rename_i owner
        simp only [Option.map_map, Option.map_eq_some_iff] at stepped
        obtain ⟨s₂, tested, rfl⟩ := stepped
        exact .inr ⟨fuel, _, s₂, _, .mutant t o wait (by simpa using owner) (by simpa using kind),
          tested, .inl ⟨t, wait, rfl⟩⟩
  | expireTimer timer =>
    cases signals
    exact .inr ⟨fuel, _, s', _, .timer o callable, stepped, .inr rfl⟩

theorem SignalChange.kept {action : DispatcherAction Thread Object} {tests : Bool} {s₁ : Dispatcher Thread Object}
    (change : SignalChange s action o s₁ tests) : s₁.thread = s.thread ∧ s₁.isMutant = s.isMutant ∧
      ∀ m t, s₁.ownerThread m = some t → s.ownerThread m = some t := by
  cases change with
  | event | semaphore | timer => exact ⟨rfl, setSignal_isMutant _ _ _, fun _ _ => id⟩
  | mutant u o wait owner kind =>
    refine ⟨rfl, setSignal_isMutant _ _ _, fun m t owned => ?_⟩
    by_cases same : m = o
    · simp [surrendered, setSignal, same] at owned
    · simpa [surrendered, setSignal, same] using owned

theorem Consistent.change {action : DispatcherAction Thread Object} {tests : Bool} {s₁ : Dispatcher Thread Object}
    (held : Consistent s waiters owned) (change : SignalChange s action o s₁ tests) :
    ∃ owned, Consistent s₁ waiters owned := by
  cases change with
  | event t o wait type => exact ⟨owned, held.setSignal (by rcases type with type | type <;> simp [isMutant, type]) 1⟩
  | semaphore t o adjustment wait type => exact ⟨owned, held.setSignal (by simp [isMutant, type]) _⟩
  | timer o type => exact ⟨owned, held.setSignal (by simp [isMutant, type]) 1⟩
  | mutant t o wait owner => exact ⟨_, held.surrender owner⟩

theorem MeetsSpare.changed {action : DispatcherAction Thread Object} {tests : Bool} {s₁ : Dispatcher Thread Object}
    (spares : MeetsSpare s action) (held : Consistent s waiters owned) (change : SignalChange s action o s₁ tests)
    (tested : tests) (t : Thread) (meets : Meets s₁ o s₁.signalState ((waiters o).map Prod.fst) t) : Spares s₁ t o := by
  obtain ⟨threads, kinds, -⟩ := change.kept
  unfold Spares
  rw [threads, kinds]
  exact spares o s₁ tests change tested (waiters o) (held.waitRing o) t meets

theorem WalkRule.signalled {Lit : Dispatcher Thread Object → Prop}
    {Rest : Dispatcher Thread Object → List (Thread × Fin 3) → Prop} (rule : WalkRule o Lit Rest)
    {action : DispatcherAction Thread Object} {tests : Bool} {s₁ s₂ : Dispatcher Thread Object} {fuel : Nat}
    (held : Consistent s waiters owned) (change : SignalChange s action o s₁ tests) (lit : tests → Lit s₁)
    (rest : tests → Rest s₁ (waiters o))
    (tested : (if tests then Ks.testWaiters fuel s₁ o else some s₁) = some s₂)
    (spares : MeetsSpare s action) : Agrees s₂ ∧ Relation.ReflTransGen (Granted Lit o) s₁ s₂ ∧
      (tests = false ∧ s₂ = s₁ ∨ Rest s₂ [] ∨ ∃ post, Rest s₂ post ∧ ¬ GoesOn o s₂) := by
  obtain ⟨owned', now⟩ := held.change change
  cases tests with
  | false =>
    cases tested
    exact ⟨⟨_, _, now⟩, .refl, .inl ⟨rfl, rfl⟩⟩
  | true =>
    obtain ⟨agrees, chain, done⟩ := rule.testWaiters now (lit rfl) (rest rfl) tested (spares.changed held change rfl)
    exact ⟨agrees, chain, .inr done⟩

end Actions
end VeaOS.Ks
