import VeaOS.Pt.RunQueue

/-! A thread is queued exactly while it is ready. The trees of the run queues are
kept apart from the placement of the threads: which thread is queued where, which
one each processor runs, and what the states say about it. -/
namespace VeaOS.Pt
open Foundation PointerTree Rtl Scheduler Transition Function Option
open List (Pairwise Sublist erase_sublist head?_cons head?_nil length_cons length_erase_le mem_append_left
  mem_append_right mem_cons mem_of_mem_erase mem_singleton nodup_nil pairwise_append pairwise_cons perm_middle)
variable {Cpu : Type} [DecidableEq Cpu]

/-- The memory holds a red-black tree for every processor, no node in two of them. -/
structure Queued (σ : Scheduler Cpu) (t : Cpu → KeyTree (KThread Cpu) RbColor) : Prop where
  focus (cpu) : Focus (σ.cfsTree cpu) (σ.cfsTree cpu) .top (t cpu)
  shape (cpu) : Rb (t cpu)
  leftmost (cpu) : (σ.cfsTree cpu).leftmost = (t cpu).inorder.head?
  apart {i j x} : x ∈ (t i).inorder → x ∈ (t j).inorder → i = j

section Trees
variable {σ σ' : Scheduler Cpu} {t : Cpu → KeyTree (KThread Cpu) RbColor}

omit [DecidableEq Cpu] in
theorem Queued.congr (queued : Queued σ t) (same : ∀ cpu, σ'.cfsTree cpu = σ.cfsTree cpu) :
    Queued σ' t := by
  constructor
  · intro cpu
    rw [same]
    exact queued.focus cpu
  · exact queued.shape
  · intro cpu
    rw [same]
    exact queued.leftmost cpu
  · exact queued.apart

omit [DecidableEq Cpu] in
theorem Queued.focus_congr (queued : Queued σ t) {T : RbTree (KThread Cpu)}
    (same : ∀ k ∈ (t cpu).inorder, Same (σ.cfsTree cpu) T k)
    (root : T.root = (σ.cfsTree cpu).root) : Focus T T .top (t cpu) := by
  have focus := queued.focus cpu
  exact ⟨focus.stored.congr same, root.trans focus.around, focus.distinct, fun k _ => .refl T k, rfl⟩

@[simp] theorem cfsTree_setState (σ : Scheduler Cpu) (x : KThread Cpu) (state : KThreadState)
    (cpu : Cpu) : (σ.setState x state).cfsTree cpu = σ.cfsTree cpu := rfl

@[simp] theorem cfsTree_setCfsTree (σ : Scheduler Cpu) (cpu : Cpu) (T : RbTree (KThread Cpu)) :
    (σ.setCfsTree cpu T).cfsTree cpu = T := by
  simp only [cfsTree, setCfsTree, if_pos]

theorem cfsTree_setCfsTree_of_ne (σ : Scheduler Cpu) (other : i ≠ cpu) (T : RbTree (KThread Cpu)) :
    (σ.setCfsTree cpu T).cfsTree i =
      ⟨T.child, T.parent, T.balance, (σ.cfsTree i).root, (σ.cfsTree i).leftmost⟩ := by
  simp only [cfsTree, setCfsTree, if_neg other]

theorem Queued.setCfsTree (cpu : Cpu) (thread : KThread Cpu) (queued : Queued σ t) {T : RbTree (KThread Cpu)}
    {u : KeyTree (KThread Cpu) RbColor} (focus : Focus T T .top u) (shape : Rb u)
    (cached : T.leftmost = u.inorder.head?)
    (kept : ∀ z, z ∉ (t cpu).inorder → z ≠ thread → Same (σ.cfsTree cpu) T z)
    (members : ∀ z ∈ u.inorder, z ∈ (t cpu).inorder ∨ z = thread)
    (home : ∀ i, thread ∈ (t i).inorder → i = cpu) :
    Queued (σ.setCfsTree cpu T) (update t cpu u) := by
  have outside : ∀ i, i ≠ cpu → ∀ z ∈ (t i).inorder, z ∉ (t cpu).inorder ∧ z ≠ thread := by
    intro i other z member
    constructor
    · exact fun inside => other (queued.apart member inside)
    · rintro rfl
      exact other (home i member)
  constructor
  · intro i
    by_cases here : i = cpu
    · subst i
      rw [cfsTree_setCfsTree, update_self]
      exact focus
    · rw [update_of_ne here, cfsTree_setCfsTree_of_ne σ here]
      apply queued.focus_congr
      · intro z member
        obtain ⟨child, parent, balance⟩ :=
          kept z (outside i here z member).1 (outside i here z member).2
        exact ⟨child, parent, balance⟩
      · rfl
  · intro i
    by_cases here : i = cpu
    · subst i
      rwa [update_self]
    · rw [update_of_ne here]
      exact queued.shape i
  · intro i
    by_cases here : i = cpu
    · subst i
      rw [cfsTree_setCfsTree, update_self]
      exact cached
    · rw [update_of_ne here, cfsTree_setCfsTree_of_ne σ here]
      exact queued.leftmost i
  · have inside : ∀ i z, z ∈ (update t cpu u i).inorder →
        z ∈ (t i).inorder ∨ (i = cpu ∧ z = thread) := by
      intro i z member
      by_cases here : i = cpu
      · subst i
        rw [update_self] at member
        exact (members z member).imp_right fun same => ⟨rfl, same⟩
      · rw [update_of_ne here] at member
        exact .inl member
    intro i j z first second
    rcases inside i z first with atI | ⟨rfl, rfl⟩
    · rcases inside j z second with atJ | ⟨rfl, rfl⟩
      · exact queued.apart atI atJ
      · exact home i atI
    · rcases inside j z second with atJ | ⟨rfl, -⟩
      · exact (home j atJ).symm
      · rfl

/-- The threads of a list are in the order of their virtual runtimes. -/
def ByRuntime (σ : Scheduler Cpu) (threads : List (KThread Cpu)) : Prop :=
  threads.Pairwise fun x y => σ.vRuntime x ≤ σ.vRuntime y

omit [DecidableEq Cpu] in
theorem ByRuntime.congr (sorted : ByRuntime σ threads)
    (same : ∀ x ∈ threads, σ'.vRuntime x = σ.vRuntime x) : ByRuntime σ' threads := by
  refine Pairwise.imp_of_mem (fun first second below => ?_) sorted
  rw [same _ first, same _ second]
  exact below

omit [DecidableEq Cpu] in
theorem compare_neg {x y : KThread Cpu} :
    ptCfsCompareRoutine σ x y < 0 ↔ σ.vRuntime x < σ.vRuntime y := by
  rw [ptCfsCompareRoutine]
  split
  next less => simp [less]
  next more => split <;> simp [more]

omit [DecidableEq Cpu] in
theorem ByRuntime.insertion {u : KeyTree (KThread Cpu) RbColor} (sorted : ByRuntime σ u.inorder)
    (thread : KThread Cpu) :
    let c := Context.insertion (fun node => ptCfsCompareRoutine σ thread node < 0) u .top
    ByRuntime σ (c.before ++ thread :: c.after) := by
  intro c
  have between : c.before ++ c.after = u.inorder := Context.before_after_insertion _ u
  obtain ⟨notBefore, inFront⟩ := Context.insertion_separates (t := u) (c := .top)
    (fun node => ptCfsCompareRoutine σ thread node < 0)
    (Pairwise.imp (fun {x y} below goes => by
      simp only [decide_eq_true_eq, compare_neg] at goes ⊢
      exact Nat.lt_of_lt_of_le goes below) sorted)
    (by simp [Context.before]) (by simp [Context.after])
  rw [← between] at sorted
  obtain ⟨before, after, across⟩ := pairwise_append.mp sorted
  refine pairwise_append.mpr ⟨before, pairwise_cons.mpr ⟨fun y member => ?_, after⟩, ?_⟩
  · exact BitVec.le_of_lt (compare_neg.mp (of_decide_eq_true (inFront y member)))
  · rintro x first y second
    rcases mem_cons.mp second with rfl | later
    · exact BitVec.not_lt.mp fun less => of_decide_eq_false (notBefore x first) (compare_neg.mpr less)
    · exact across x first y later

/-- The scheduler after a thread was put into the tree of a processor. -/
structure Enqueued (σ σ' : Scheduler Cpu) (t t' : Cpu → KeyTree (KThread Cpu) RbColor) (cpu : Cpu)
    (thread : KThread Cpu) : Prop where
  queued : Queued σ' t'
  members (i x) : x ∈ (t' i).inorder ↔ x ∈ (t i).inorder ∨ (i = cpu ∧ x = thread)
  size (i) : (t' i).size ≤ (t i).size + 1
  state : σ'.state = Function.update σ.state thread .ready
  current : σ'.current = σ.current
  threadList : σ'.threadList = σ.threadList
  vRuntime : σ'.vRuntime = σ.vRuntime
  sorted (i) : ByRuntime σ (t i).inorder → ByRuntime σ' (t' i).inorder

theorem enqueue_spec (queued : Queued σ t) (cpu : Cpu) (absent : ∀ i, thread ∉ (t i).inorder)
    (enough : (t cpu).size < fuel) :
    ∃ σ' t', ptEnqueueThreadCfs fuel σ cpu thread = some σ' ∧ Enqueued σ σ' t t' cpu thread := by
  let T₀ := (((σ.cfsTree cpu).setChild .left thread none).setChild .right thread none).setParent
    thread none
  have others : ∀ z, z ≠ thread → Same (σ.cfsTree cpu) T₀ z := fun z other =>
    ((same_setChild other).trans (same_setChild other)).trans (same_setParent other)
  have start : Focus T₀ T₀ .top (t cpu) := (queued.focus cpu).forget (absent cpu) others rfl
  let σ₁ := (σ.setCfsTree cpu T₀).setState thread .ready
  obtain ⟨T, u, inserted, focus, shape, order, cached, frame⟩ :=
    insertRb_spec (ptCfsCompareRoutine σ₁) start (queued.shape cpu) (queued.leftmost cpu)
      (absent cpu) enough
  have added : u.inorder.Perm (thread :: (t cpu).inorder) := by
    rw [order]
    exact perm_middle.trans (by rw [Context.before_after_insertion])
  have members : ∀ z, z ∈ u.inorder ↔ z ∈ (t cpu).inorder ∨ z = thread := by
    intro z
    rw [added.mem_iff, mem_cons, or_comm]
  have size : u.size = (t cpu).size + 1 := by
    rw [← KeyTree.length_inorder, added.length_eq, length_cons, KeyTree.length_inorder]
  have linked := queued.setCfsTree cpu thread focus.rebase shape cached
    (fun z outside other => (others z other).trans (frame z other outside))
    (fun z member => (members z).mp member) (fun i member => absurd member (absent i))
  have here : σ₁.cfsTree cpu = T₀ := cfsTree_setCfsTree σ cpu T₀
  let σ₂ := σ₁.setCfsTree cpu T
  let queue := { σ₂.runQueue cpu with
    runningTasks := (σ₂.runQueue cpu).runningTasks + 1
    totalWeight := (σ₂.runQueue cpu).totalWeight + (σ₂.weight thread).setWidth 32 }
  refine ⟨σ₂.setRunQueue cpu queue, update t cpu u, ?_, linked.congr fun i => ?_,
    fun i x => ?_, fun i => ?_, ?_, rfl, rfl, rfl, fun i sorted => ?_⟩
  · change (rtlInsertElementRb fuel (ptCfsCompareRoutine σ₁) (σ₁.cfsTree cpu) thread).bind _ = _
    rw [here, inserted]
    rfl
  · by_cases atCpu : i = cpu
    · subst i
      simp [cfsTree, setRunQueue, σ₂, queue, setCfsTree]
    · simp [cfsTree, setRunQueue, setCfsTree, σ₂, σ₁, setState, atCpu]
  · by_cases atCpu : i = cpu
    · subst i
      simp [members]
    · simp [atCpu]
  · by_cases atCpu : i = cpu
    · subst i
      simp [size]
    · simp [atCpu]
  · funext x
    simp [σ₂, σ₁, setState, setRunQueue, setCfsTree, update_apply]
  · refine ByRuntime.congr (σ := σ) ?_ fun x member => rfl
    by_cases atCpu : i = cpu
    · subst i
      rw [update_self, order]
      exact sorted.insertion thread
    · rwa [update_of_ne atCpu]

/-- The scheduler after the next thread of a processor was chosen. -/
structure Selected (σ σ' : Scheduler Cpu) (t t' : Cpu → KeyTree (KThread Cpu) RbColor) (cpu : Cpu)
    (next : KThread Cpu) : Prop where
  queued : Queued σ' t'
  choice : next ∈ (t cpu).inorder ∨ (next = .idle cpu ∧ (t cpu).inorder = [])
  first : next = (t cpu).inorder.head?.getD (.idle cpu)
  members (i x) : x ∈ (t' i).inorder ↔ x ∈ (t i).inorder ∧ (i = cpu → x ≠ next)
  size (i) : (t' i).size ≤ (t i).size
  state : σ'.state = Function.update σ.state next .running
  current : σ'.current = σ.current
  threadList : σ'.threadList = σ.threadList
  vRuntime : σ'.vRuntime = σ.vRuntime
  left (i) : (t' i).inorder.Sublist (t i).inorder

theorem pick_none {cpu : Cpu} (none_left : (σ.runQueue cpu).leftmost = none) :
    ptPickNextThreadCfs fuel σ cpu =
      some (σ.setRunQueue cpu { σ.runQueue cpu with currentThread := none }, none) := by
  unfold ptPickNextThreadCfs
  split
  · rfl
  · rename_i next some_left
    rw [none_left] at some_left
    cases some_left

theorem erase_spec (queued : Queued σ t) (cpu : Cpu) (present : thread ∈ (t cpu).inorder)
    (enough : (t cpu).size ≤ fuel) :
    ∃ T u, rtlDeleteElementRb fuel (σ.cfsTree cpu) thread = some T ∧
      Queued (σ.setCfsTree cpu T) (update t cpu u) ∧
      u.inorder = (t cpu).inorder.erase thread := by
  obtain ⟨T, u, deleted, focus, shape, left, first, frame⟩ :=
    deleteRb_spec (queued.focus cpu) (queued.shape cpu) (queued.leftmost cpu) present enough
  refine ⟨T, u, deleted, queued.setCfsTree cpu thread focus.rebase shape first
    (fun z outside _ => frame z outside) (fun z member => .inl ?_)
    (fun i member => queued.apart member present), left⟩
  rw [left] at member
  exact mem_of_mem_erase member

theorem select_spec (queued : Queued σ t) (cpu : Cpu) (enough : (t cpu).size ≤ fuel) :
    ∃ σ' t' next, ptSelectNextThread fuel σ cpu = some (σ', next) ∧ Selected σ σ' t t' cpu next := by
  have cached := queued.leftmost cpu
  have leftmost : (σ.cfsTree cpu).leftmost = (σ.runQueue cpu).leftmost := rfl
  cases order : (t cpu).inorder with
  | nil =>
    rw [leftmost, order, head?_nil] at cached
    let σ₁ := (σ.setRunQueue cpu { σ.runQueue cpu with currentThread := none }).setState
      (.idle cpu) .running
    refine ⟨σ₁.setRunQueue cpu { σ₁.runQueue cpu with currentThread := some (.idle cpu) }, t,
      .idle cpu, ?_, queued.congr fun i => ?_, .inr ⟨rfl, order⟩, by rw [order]; rfl, fun i x => ?_,
      fun i => Nat.le_refl _, ?_, rfl, rfl, rfl, fun i => Sublist.refl _⟩
    · rw [ptSelectNextThread, pick_none cached]
      rfl
    · by_cases atCpu : i = cpu
      · subst i
        simp [cfsTree, setRunQueue, setState, σ₁]
      · simp [cfsTree, setRunQueue, setState, σ₁, atCpu]
    · by_cases atCpu : i = cpu
      · subst i
        simp [order]
      · simp [atCpu]
    · funext x
      simp [σ₁, setState, setRunQueue, update_apply]
  | cons next rest =>
    rw [leftmost, order, head?_cons] at cached
    have present : next ∈ (t cpu).inorder := by simp [order]
    obtain ⟨T, u, deleted, linked, left⟩ := erase_spec queued cpu present enough
    have distinct : (t cpu).inorder.Nodup := (queued.focus cpu).distinct
    have members : ∀ z, z ∈ u.inorder ↔ z ∈ (t cpu).inorder ∧ z ≠ next := by
      intro z
      rw [left, distinct.mem_erase_iff, and_comm]
    have size : u.size ≤ (t cpu).size := by
      rw [← KeyTree.length_inorder, ← KeyTree.length_inorder, left]
      exact length_erase_le
    let σ₁ := (σ.setCfsTree cpu T).setState next .running
    let σ₂ := (σ₁.setRunQueue cpu { σ₁.runQueue cpu with currentThread := some next }).setState
      next .running
    refine ⟨σ₂.setRunQueue cpu { σ₂.runQueue cpu with currentThread := some next },
      update t cpu u, next, ?_, linked.congr fun i => ?_, .inl (by simp [order]),
      by rw [order]; rfl, fun i x => ?_, fun i => ?_, ?_, rfl, rfl, rfl, fun i => ?_⟩
    · simp only [ptSelectNextThread, ptPickNextThreadCfs, cached, deleted]
      rfl
    · by_cases atCpu : i = cpu
      · subst i
        simp [cfsTree, setRunQueue, setState, setCfsTree, σ₁, σ₂]
      · simp [cfsTree, setRunQueue, setState, setCfsTree, σ₁, σ₂, atCpu]
    · by_cases atCpu : i = cpu
      · subst i
        simp [members]
      · simp [atCpu]
    · by_cases atCpu : i = cpu
      · subst i
        simp [size]
      · simp [atCpu]
    · funext x
      by_cases same : x = next <;> simp [σ₁, σ₂, setState, setRunQueue, setCfsTree, same]
    · by_cases atCpu : i = cpu
      · subst i
        rw [update_self, left]
        exact erase_sublist
      · rw [update_of_ne atCpu]

end Trees

section Placement

/-- A thread that was created, or the idle thread of a processor that runs. -/
def TakesPart (current : Cpu → Option (KThread Cpu)) : KThread Cpu → Prop
  | .idle cpu => current cpu ≠ none
  | .created _ => True

/-- What the states of the threads say about where they are. A thread that is
current may be waiting already; an idle thread stays with its processor. -/
structure Placed (state : KThread Cpu → KThreadState) (current : Cpu → Option (KThread Cpu))
    (threads : List (KThread Cpu)) (queue : Cpu → KThread Cpu → Prop) : Prop where
  ready {i x} : queue i x → state x = .ready
  queued {x} : TakesPart current x → state x = .ready → ∃ i, queue i x
  busy {i x} : current i = some x → state x ≠ .ready
  alone {i j x} : current i = some x → current j = some x → i = j
  home {i j} : queue i (.idle j) ∨ current i = some (.idle j) → i = j
  unborn {id} : .created id ∉ threads → state (.created id) = .initialized
  started {i id} : current i = some (.created id) → .created id ∈ threads

namespace Placed
variable {state : KThread Cpu → KThreadState} {current : Cpu → Option (KThread Cpu)}
  {threads : List (KThread Cpu)} {queue : Cpu → KThread Cpu → Prop}

omit [DecidableEq Cpu] in
theorem absent (placed : Placed state current threads queue) (runs : current i = some x) (j : Cpu) :
    ¬ queue j x :=
  fun member => placed.busy runs (placed.ready member)

theorem dispatch (placed : Placed state current threads queue) (active : current cpu ≠ none)
    (choice : queue cpu next ∨ (next = .idle cpu ∧ ∀ x, ¬ queue cpu x))
    (apart : ∀ i, queue i next → i = cpu) :
    Placed (update state next .running) (update current cpu (some next)) threads
      fun i x => queue i x ∧ (i = cpu → x ≠ next) := by
  have notQueued : ∀ {i x}, queue i x → (i = cpu → x ≠ next) → x ≠ next := by
    rintro i x member other rfl
    exact other (apart i member) rfl
  have takes : ∀ {x}, TakesPart (update current cpu (some next)) x → TakesPart current x := by
    rintro (j | id) takes
    · intro stopped
      by_cases here : j = cpu
      · subst j
        exact active stopped
      · exact takes ((update_of_ne here ..).trans stopped)
    · trivial
  have elsewhere : ∀ {i}, i ≠ cpu → current i ≠ some next := by
    intro i other runs
    rcases choice with member | ⟨rfl, -⟩
    · exact placed.absent runs cpu member
    · exact other (placed.home (.inr runs))
  constructor
  · rintro i x ⟨member, other⟩
    rw [update_of_ne (notQueued member other)]
    exact placed.ready member
  · intro x part isReady
    have other : x ≠ next := by
      rintro rfl
      rw [update_self] at isReady
      cases isReady
    rw [update_of_ne other] at isReady
    obtain ⟨i, member⟩ := placed.queued (takes part) isReady
    exact ⟨i, member, fun _ => other⟩
  · intro i x runs isReady
    have other : x ≠ next := by
      rintro rfl
      rw [update_self] at isReady
      cases isReady
    rw [update_of_ne other] at isReady
    by_cases here : i = cpu
    · subst i
      rw [update_self] at runs
      exact other (some.inj runs).symm
    · rw [update_of_ne here] at runs
      exact placed.busy runs isReady
  · intro i j x runs runs'
    by_cases here : i = cpu
    · subst i
      by_cases there : j = cpu
      · exact there.symm
      · rw [update_self] at runs
        rw [update_of_ne there, ← runs] at runs'
        exact absurd runs' (elsewhere there)
    · rw [update_of_ne here] at runs
      by_cases there : j = cpu
      · subst j
        rw [update_self] at runs'
        exact absurd (runs.trans runs'.symm) (elsewhere here)
      · rw [update_of_ne there] at runs'
        exact placed.alone runs runs'
  · rintro i j (⟨member, -⟩ | runs)
    · exact placed.home (.inl member)
    · by_cases here : i = cpu
      · subst i
        rw [update_self] at runs
        cases runs
        rcases choice with member | ⟨same, -⟩
        · exact placed.home (.inl member)
        · exact (KThread.idle.inj same).symm
      · rw [update_of_ne here] at runs
        exact placed.home (.inr runs)
  · intro id fresh
    have initial := placed.unborn fresh
    rw [update_of_ne, initial]
    rintro rfl
    rcases choice with member | ⟨same, -⟩
    · rw [placed.ready member] at initial
      cases initial
    · cases same
  · intro i id runs
    by_cases here : i = cpu
    · subst i
      rw [update_self] at runs
      cases runs
      rcases choice with member | ⟨same, -⟩
      · by_contra fresh
        have initial := placed.unborn fresh
        rw [placed.ready member] at initial
        cases initial
      · cases same
    · rw [update_of_ne here] at runs
      exact placed.started runs

theorem enqueue (placed : Placed state current threads queue) (off : ∀ i, current i ≠ some x)
    (home : ∀ i, x = .idle i → cpu = i) (born : ∀ id, x = .created id → x ∈ threads) :
    Placed (update state x .ready) current threads
      fun i y => queue i y ∨ (i = cpu ∧ y = x) := by
  constructor
  · rintro i y (member | ⟨rfl, rfl⟩)
    · by_cases same : y = x
      · rw [same, update_self]
      · rw [update_of_ne same]
        exact placed.ready member
    · exact update_self ..
  · intro y part isReady
    by_cases same : y = x
    · exact ⟨cpu, .inr ⟨rfl, same⟩⟩
    · rw [update_of_ne same] at isReady
      obtain ⟨i, member⟩ := placed.queued part isReady
      exact ⟨i, .inl member⟩
  · intro i y runs
    rw [update_of_ne]
    · exact placed.busy runs
    · rintro rfl
      exact off i runs
  · exact placed.alone
  · rintro i j ((member | ⟨rfl, same⟩) | runs)
    · exact placed.home (.inl member)
    · exact home j same.symm
    · exact placed.home (.inr runs)
  · intro id fresh
    rw [update_of_ne]
    · exact placed.unborn fresh
    · rintro rfl
      exact fresh (born id rfl)
  · exact placed.started

theorem block (placed : Placed state current threads queue) (runs : current cpu = some x) :
    Placed (update state x .waiting) current threads queue := by
  have unready : ∀ {y}, update state x .waiting y = .ready → state y = .ready := by
    intro y isReady
    by_cases same : y = x
    · rw [same, update_self] at isReady
      cases isReady
    · rwa [update_of_ne same] at isReady
  constructor
  · intro i y member
    rw [update_of_ne]
    · exact placed.ready member
    · rintro rfl
      exact placed.absent runs i member
  · exact fun part isReady => placed.queued part (unready isReady)
  · exact fun active isReady => placed.busy active (unready isReady)
  · exact placed.alone
  · exact placed.home
  · intro id fresh
    rw [update_of_ne]
    · exact placed.unborn fresh
    · rintro rfl
      exact fresh (placed.started runs)
  · exact placed.started

omit [DecidableEq Cpu] in
theorem create (placed : Placed state current threads queue) :
    Placed state current (threads ++ [.created new]) queue := by
  constructor
  · exact placed.ready
  · exact placed.queued
  · exact placed.busy
  · exact placed.alone
  · exact placed.home
  · intro id outside
    exact placed.unborn fun member => outside (mem_append_left _ member)
  · exact fun runs => mem_append_left _ (placed.started runs)

end Placed
end Placement

/-- The trees hold the threads where their states say they are. -/
structure Disciplined (n : Nat) (σ : Scheduler Cpu) (t : Cpu → KeyTree (KThread Cpu) RbColor) :
    Prop where
  queued : Queued σ t
  placed : Placed σ.state σ.current σ.threadList fun i x => x ∈ (t i).inorder
  size (i) : (t i).size ≤ n
  sorted (i) : ByRuntime σ (t i).inorder

section Steps
variable {σ σ' : Scheduler Cpu} {t : Cpu → KeyTree (KThread Cpu) RbColor}

namespace Disciplined

omit [DecidableEq Cpu] in
theorem congr (disciplined : Disciplined n σ t) (trees : ∀ cpu, σ'.cfsTree cpu = σ.cfsTree cpu)
    (state : σ'.state = σ.state) (current : σ'.current = σ.current)
    (threadList : σ'.threadList = σ.threadList)
    (vRuntime : ∀ i, ∀ x ∈ (t i).inorder, σ'.vRuntime x = σ.vRuntime x) : Disciplined n σ' t := by
  constructor
  · exact disciplined.queued.congr trees
  · rw [state, current, threadList]
    exact disciplined.placed
  · exact disciplined.size
  · exact fun i => (disciplined.sorted i).congr (vRuntime i)

omit [DecidableEq Cpu] in
theorem mono (disciplined : Disciplined n σ t) (more : n ≤ m) : Disciplined m σ t :=
  ⟨disciplined.queued, disciplined.placed, fun i => Nat.le_trans (disciplined.size i) more,
    disciplined.sorted⟩

theorem enqueue (cpu : Cpu) (thread : KThread Cpu) (disciplined : Disciplined n σ t)
    (off : ∀ i, σ.current i ≠ some thread)
    (unqueued : σ.state thread ≠ .ready) (home : ∀ i, thread = .idle i → cpu = i)
    (born : ∀ id, thread = .created id → thread ∈ σ.threadList) (enough : n < fuel) :
    ∃ σ' t', ptEnqueueThreadCfs fuel σ cpu thread = some σ' ∧ Disciplined (n + 1) σ' t' := by
  have placed := disciplined.placed
  have size := disciplined.size cpu
  obtain ⟨σ', t', done, queued⟩ := enqueue_spec disciplined.queued cpu
    (fun i member => unqueued (placed.ready member)) (show (t cpu).size < fuel by omega)
  refine ⟨σ', t', done, queued.queued, ?_, fun i => ?_, fun i => queued.sorted i (disciplined.sorted i)⟩
  · have after := placed.enqueue off home born
    rw [queued.state, queued.current, queued.threadList]
    simpa only [queued.members] using after
  · have := queued.size i
    have := disciplined.size i
    omega

theorem dispatch (disciplined : Disciplined n σ t) (active : σ.current cpu ≠ none)
    (enough : n ≤ fuel) : ∃ σ' t' next, ptSelectNextThread fuel σ cpu = some (σ', next) ∧
      Disciplined n (σ'.setCurrent cpu next) t' ∧
      σ'.state = update σ.state next .running ∧ σ'.current = σ.current ∧
      (next = .idle cpu ∨ σ.state next = .ready) := by
  have placed := disciplined.placed
  have queued := disciplined.queued
  have size := disciplined.size cpu
  obtain ⟨σ', t', next, done, selected⟩ :=
    select_spec queued cpu (show (t cpu).size ≤ fuel by omega)
  have apart : ∀ i, next ∈ (t i).inorder → i = cpu := by
    intro i member
    rcases selected.choice with here | ⟨rfl, -⟩
    · exact queued.apart member here
    · exact placed.home (.inl member)
  have current : (σ'.setCurrent cpu next).current = update σ.current cpu (some next) := by
    funext i
    simp [setCurrent, update_apply, selected.current]
  refine ⟨σ', t', next, done, ⟨selected.queued.congr fun _ => rfl, ?_, fun i => ?_, fun i => ?_⟩,
    selected.state, selected.current, ?_⟩
  · have after := placed.dispatch active (selected.choice.imp_right fun ⟨same, empty⟩ =>
      ⟨same, by simp [empty]⟩) apart
    rw [current, show (σ'.setCurrent cpu next).state = σ'.state from rfl, selected.state,
      show (σ'.setCurrent cpu next).threadList = σ'.threadList from rfl, selected.threadList]
    simpa only [selected.members] using after
  · exact Nat.le_trans (selected.size i) (disciplined.size i)
  · refine ByRuntime.congr (σ := σ) ((disciplined.sorted i).sublist (selected.left i)) fun x member => ?_
    exact congrFun selected.vRuntime x
  · rcases selected.choice with member | ⟨same, -⟩
    · exact .inr (placed.ready member)
    · exact .inl same

theorem enqueue_setCurrent (fuel : Nat) (σ : Scheduler Cpu) (i cpu : Cpu) (next thread : KThread Cpu) :
    ptEnqueueThreadCfs fuel (σ.setCurrent i next) cpu thread =
      (ptEnqueueThreadCfs fuel σ cpu thread).map fun σ' => σ'.setCurrent i next := by
  simp only [ptEnqueueThreadCfs, bind_eq_bind, map_bind]
  rfl

theorem enqueue_setState (fuel : Nat) (σ : Scheduler Cpu) (cpu : Cpu) (thread : KThread Cpu)
    (state : KThreadState) : ptEnqueueThreadCfs fuel (σ.setState thread state) cpu thread =
      ptEnqueueThreadCfs fuel σ cpu thread := by
  have overwritten : ∀ T, ((σ.setState thread state).setCfsTree cpu T).setState thread .ready =
      (σ.setCfsTree cpu T).setState thread .ready := by
    intro T
    simp only [setState, setCfsTree, Scheduler.mk.injEq, and_true]
    funext x
    by_cases same : x = thread
    · simp only [if_pos same]
    · simp only [if_neg same]
  simp only [ptEnqueueThreadCfs, overwritten, cfsTree_setState]

theorem create (disciplined : Disciplined n σ t) (fresh : .created new ∉ σ.threadList)
    (trees : ∀ cpu k, k ≠ .created new → Same (σ.cfsTree cpu) (σ'.cfsTree cpu) k)
    (queues : σ'.runQueue = σ.runQueue)
    (state : σ'.state = update σ.state (.created new) .initialized)
    (current : σ'.current = σ.current) (threadList : σ'.threadList = σ.threadList ++ [.created new])
    (vRuntime : ∀ x, x ≠ .created new → σ'.vRuntime x = σ.vRuntime x) : Disciplined n σ' t := by
  have queued := disciplined.queued
  have placed := disciplined.placed
  have initial := placed.unborn fresh
  have outside : ∀ {i k}, k ∈ (t i).inorder → k ≠ .created new := by
    rintro i k member rfl
    rw [placed.ready member] at initial
    cases initial
  constructor
  · constructor
    · intro cpu
      apply queued.focus_congr
      · exact fun k member => trees cpu k (outside member)
      · simp only [cfsTree, queues]
    · exact queued.shape
    · intro cpu
      rw [show (σ'.cfsTree cpu).leftmost = (σ.cfsTree cpu).leftmost by simp only [cfsTree, queues]]
      exact queued.leftmost cpu
    · exact queued.apart
  · rw [state, current, threadList, ← initial, update_eq_self]
    exact placed.create
  · exact disciplined.size
  · exact fun i => (disciplined.sorted i).congr fun x member => vRuntime x (outside member)

theorem block (disciplined : Disciplined n σ t) (runs : σ.current cpu = some thread) :
    Disciplined n (σ.setState thread .waiting) t := by
  have state : (σ.setState thread .waiting).state = update σ.state thread .waiting := by
    funext x
    simp only [setState, update_apply]
  refine ⟨disciplined.queued.congr fun _ => rfl, ?_, disciplined.size, disciplined.sorted⟩
  rw [state]
  exact disciplined.placed.block runs

theorem yield (disciplined : Disciplined n σ t) (active : σ.current cpu ≠ none)
    (enough : n < fuel) : ∃ σ' t', ptYieldThread fuel σ cpu = some σ' ∧
      Disciplined (n + 1) σ' t' := by
  obtain ⟨thread, runs⟩ := Option.ne_none_iff_exists'.mp active
  obtain ⟨σ₁, t₁, next, done, after, state, current, choice⟩ :=
    disciplined.dispatch active (Nat.le_of_lt enough)
  by_cases requeued : thread ≠ .idle cpu ∧ σ₁.state thread = .running
  · have other : next ≠ thread := by
      rintro rfl
      rcases choice with same | isReady
      · exact requeued.1 same
      · exact disciplined.placed.busy runs isReady
    have off : ∀ i, (σ₁.setCurrent cpu next).current i ≠ some thread := by
      intro i runs'
      by_cases here : i = cpu
      · simp only [setCurrent, if_pos here, Option.some.injEq] at runs'
        exact other runs'
      · simp only [setCurrent, if_neg here, current] at runs'
        exact here (disciplined.placed.alone runs' runs)
    have unqueued : σ₁.state thread ≠ .ready := by simp [requeued.2]
    have home : ∀ i, thread = .idle i → cpu = i := by
      rintro i rfl
      exact disciplined.placed.home (.inr runs)
    have born : ∀ id, thread = .created id → thread ∈ (σ₁.setCurrent cpu next).threadList := by
      rintro id rfl
      by_contra fresh
      have initial := after.placed.unborn fresh
      rw [show (σ₁.setCurrent cpu next).state = σ₁.state from rfl, requeued.2] at initial
      cases initial
    obtain ⟨σ₂, t₂, linked, final⟩ := after.enqueue cpu thread off unqueued home born enough
    rw [enqueue_setCurrent] at linked
    obtain ⟨σ₃, queued, rfl⟩ := Option.map_eq_some_iff.mp linked
    refine ⟨_, t₂, ?_, final⟩
    simp only [ptYieldThread, done, runs, Option.bind_eq_bind, Option.bind_some, if_pos requeued,
      queued, Option.pure_def]
  · refine ⟨σ₁.setCurrent cpu next, t₁, ?_, after.mono (Nat.le_succ n)⟩
    simp only [ptYieldThread, done, runs, Option.bind_eq_bind, Option.bind_some, if_neg requeued,
      Option.pure_def]

end Disciplined

/-- An action is carried out by a processor that runs a thread, and the memory
of a new thread is not in use. -/
def Executes (σ : Scheduler Cpu) : SchedulerAction Cpu → Prop
  | .create cpu thread _ => σ.current cpu ≠ none ∧ (∃ id, thread = .created id) ∧ thread ∉ σ.threadList
  | .yield cpu | .tick cpu _ | .block cpu | .wake cpu _ => σ.current cpu ≠ none
  | .setPriority _ _ => True

/-- A thread is woken only after it left the processor that it blocked on, and
an idle thread only by its own processor. -/
def WakesParked (σ : Scheduler Cpu) : SchedulerAction Cpu → Prop
  | .wake cpu thread => σ.state thread = .waiting →
      (∀ i, σ.current i ≠ some thread) ∧ ∀ i, thread = .idle i → cpu = i
  | _ => True

theorem disciplined_schedule (disciplined : Disciplined n σ t)
    (admitted : Executes σ action ∧ WakesParked σ action) (enough : n < fuel) :
    ∃ σ' t', schedule fuel σ action = some σ' ∧ Disciplined (n + 1) σ' t' := by
  obtain ⟨executes, parked⟩ := admitted
  cases action with
  | create cpu thread basePriority =>
    obtain ⟨active, ⟨new, rfl⟩, fresh⟩ := executes
    let σ₁ := σ.setState (.created new) .initialized
    let σ₂ : Scheduler Cpu := { σ₁ with
      child := fun s x => if x = .created new then none else σ₁.child s x
      parent := fun x => if x = .created new then none else σ₁.parent x
      color := fun x => if x = .created new then .black else σ₁.color x
      priority := fun x => if x = .created new then basePriority else σ₁.priority x
      weight := fun x => if x = .created new then 1024 else σ₁.weight x
      vRuntime := fun x => if x = .created new then 0 else σ₁.vRuntime x
      threadList := σ₁.threadList ++ [.created new] }
    have state : σ₂.state = update σ.state (.created new) .initialized := by
      funext x
      simp only [σ₂, σ₁, setState, update_apply]
    have trees : ∀ cpu k, k ≠ .created new → Same (σ.cfsTree cpu) (σ₂.cfsTree cpu) k := by
      intro cpu k other
      constructor
      · exact fun s => if_neg other
      · exact if_neg other
      · exact if_neg other
    have created : Disciplined n σ₂ t :=
      disciplined.create fresh trees (show σ₂.runQueue = σ.runQueue from rfl) state rfl rfl
        fun x other => if_neg other
    apply created.enqueue cpu (.created new) _ _ _ _ enough
    · exact fun i runs => fresh (disciplined.placed.started runs)
    · rw [state, update_self]
      simp
    · exact fun i same => nomatch same
    · exact fun id same => mem_append_right _ (mem_singleton.mpr rfl)
  | yield cpu => exact disciplined.yield executes enough
  | wake cpu thread =>
    by_cases waits : σ.state thread = .waiting
    · obtain ⟨off, home⟩ := parked waits
      have born : ∀ id, thread = .created id → thread ∈ σ.threadList := by
        rintro id rfl
        by_contra fresh
        rw [disciplined.placed.unborn fresh] at waits
        cases waits
      obtain ⟨σ', t', done, final⟩ := disciplined.enqueue cpu thread off (by simp [waits]) home born enough
      refine ⟨σ', t', ?_, final⟩
      rw [schedule, ptWakeThread, if_neg (by simp [waits]), Disciplined.enqueue_setState, done]
      rfl
    · refine ⟨σ, t, ?_, disciplined.mono (Nat.le_succ n)⟩
      simp only [schedule, ptWakeThread, if_pos waits]
      rfl
  | tick cpu deltaTimeNs =>
    obtain ⟨thread, runs⟩ := ne_none_iff_exists'.mp executes
    simp only [schedule, ptSchedulerTick, runs]
    generalize charged : (if σ.weight thread ≠ 0 then _ else σ) = σ₁
    have kept : Disciplined n σ₁ t ∧ σ₁.current = σ.current := by
      rw [← charged]
      split
      · refine ⟨disciplined.congr (fun _ => rfl) rfl rfl rfl fun i x member => if_neg ?_, rfl⟩
        rintro rfl
        exact disciplined.placed.absent runs i member
      · exact ⟨disciplined, rfl⟩
    have rests : ∃ σ' t', some σ₁ = some σ' ∧ Disciplined (n + 1) σ' t' :=
      ⟨σ₁, t, rfl, kept.1.mono (Nat.le_succ n)⟩
    split
    · exact rests
    · split
      · exact kept.1.yield (by rw [kept.2]; exact executes) enough
      · exact rests
  | block cpu =>
    obtain ⟨thread, runs⟩ := ne_none_iff_exists'.mp executes
    refine ⟨σ.setState thread .waiting, t, ?_, (disciplined.block runs).mono (Nat.le_succ n)⟩
    simp only [schedule, blockCurrent, runs]
  | setPriority thread priority =>
    have kept : Disciplined n (ptSetThreadPriority σ thread priority) t :=
      disciplined.congr (fun _ => rfl) rfl rfl rfl fun _ _ _ => rfl
    exact ⟨_, t, rfl, kept.mono (Nat.le_succ n)⟩

end Steps

/-- Every thread is in the trees at most once, and it is in one exactly while it
is ready; what a processor runs is in none. -/
structure Membership (σ : Scheduler Cpu) (t : Cpu → KeyTree (KThread Cpu) RbColor) : Prop where
  root (cpu) : (σ.runQueue cpu).root = (t cpu).root
  stored (cpu) : (σ.cfsTree cpu).Stored none (t cpu)
  once (cpu) : (t cpu).inorder.Nodup
  apart {i j x} : x ∈ (t i).inorder → x ∈ (t j).inorder → i = j
  ready {x} : TakesPart σ.current x → ((∃ cpu, x ∈ (t cpu).inorder) ↔ σ.state x = .ready)
  running {cpu x} : σ.current cpu = some x → ∀ i, x ∉ (t i).inorder

omit [DecidableEq Cpu] in
theorem Disciplined.membership {σ : Scheduler Cpu} (disciplined : Disciplined n σ t) :
    Membership σ t := by
  obtain ⟨queued, placed, _, _⟩ := disciplined
  constructor
  · exact fun cpu => (queued.focus cpu).root_top
  · exact fun cpu => (queued.focus cpu).stored
  · exact fun cpu => (queued.focus cpu).distinct
  · exact queued.apart
  · intro x part
    constructor
    · rintro ⟨i, member⟩
      exact placed.ready member
    · exact placed.queued part
  · exact fun runs => placed.absent runs

omit [DecidableEq Cpu] in
theorem disciplined_initialize (registered : Cpu → Bool) :
    Disciplined 0 (ptInitializeRunQueues registered) fun _ => .nil := by
  have current : ∀ {i x}, (ptInitializeRunQueues registered).current i = some x →
      registered i = true ∧ x = .idle i := by
    intro i x runs
    simp only [ptInitializeRunQueues, ite_none_right_eq_some, some.injEq] at runs
    exact ⟨runs.1, runs.2.symm⟩
  refine ⟨⟨fun cpu => ?_, fun cpu => ⟨rfl, 0, rfl⟩, fun cpu => rfl, ?_⟩, ?_, fun i => Nat.le_refl 0,
    fun i => Pairwise.nil⟩
  · exact ⟨trivial, rfl, nodup_nil, fun k _ => .refl _ k, rfl⟩
  · exact fun member => nomatch member
  constructor
  · exact fun member => nomatch member
  · rintro (i | id) part isReady
    · have started : registered i = true := by
        by_contra off
        exact part (if_neg off)
      simp [ptInitializeRunQueues, started] at isReady
    · cases isReady
  · intro i x runs isReady
    obtain ⟨started, rfl⟩ := current runs
    simp [ptInitializeRunQueues, started] at isReady
  · intro i j x runs runs'
    exact KThread.idle.inj ((current runs).2.symm.trans (current runs').2)
  · rintro i j (member | runs)
    · cases member
    · exact (KThread.idle.inj (current runs).2).symm
  · exact fun _ => rfl
  · exact fun runs => nomatch (current runs).2

end VeaOS.Pt
