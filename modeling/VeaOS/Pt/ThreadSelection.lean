import VeaOS.Pt.LoadCounters

/-! Which thread a yield selects. The yielding thread gives way: it is put into the tree only after
the next one was taken from it, so it is not among those that are compared. -/
namespace VeaOS.Pt
open Foundation PointerTree Rtl Scheduler Transition Option
variable {Cpu : Type} [DecidableEq Cpu] {σ σ' σ₁ : Scheduler Cpu} {t : Cpu → KeyTree (KThread Cpu) RbColor}
  {cpu : Cpu} {next thread : KThread Cpu} {action : SchedulerAction Cpu} {fuel n : Nat}

section Selection

omit [DecidableEq Cpu] in
/-- A thread that is ready in the tree of a processor. -/
def ReadyIn (σ : Scheduler Cpu) (cpu : Cpu) (thread : KThread Cpu) : Prop :=
  InCfsTree σ cpu thread ∧ σ.state thread = .ready

omit [DecidableEq Cpu] in
/-- The thread that a processor runs, unless it is the idle one or has blocked. -/
def StillRunnable (σ : Scheduler Cpu) (cpu : Cpu) (thread : KThread Cpu) : Prop :=
  σ.current cpu = some thread ∧ thread ≠ .idle cpu ∧ σ.state thread = .running

/-- The selected thread is ready in the tree and has run least there, or it is the idle thread, which
takes over when no thread is ready. -/
def SelectsReady (σ : Scheduler Cpu) (cpu : Cpu) (next : KThread Cpu) : Prop :=
  ReadyIn σ cpu next ∧ (∀ x, ReadyIn σ cpu x → σ.vRuntime next ≤ σ.vRuntime x) ∨
    next = .idle cpu ∧ ∀ x, ¬ ReadyIn σ cpu x

structure SelectsLeast (σ : Scheduler Cpu) (cpu : Cpu) (next : KThread Cpu) : Prop where
  idle : next = .idle cpu → ∀ x, ¬ ReadyIn σ cpu x ∧ ¬ StillRunnable σ cpu x
  member : next ≠ .idle cpu → ReadyIn σ cpu next ∨ StillRunnable σ cpu next
  least : next ≠ .idle cpu → ∀ x, ReadyIn σ cpu x ∨ StillRunnable σ cpu x → σ.vRuntime next ≤ σ.vRuntime x

/-- With an empty tree the yielding thread cannot go on; otherwise the thread in front of the
tree is not the idle one, and has run no longer than a yielding thread that could go on. -/
def NoneBefore (σ : Scheduler Cpu) (cpu : Cpu) : Prop :=
  match (σ.runQueue cpu).leftmost with
  | none => ∀ x, ¬ StillRunnable σ cpu x
  | some first => first ≠ .idle cpu ∧ ∀ x, StillRunnable σ cpu x → σ.vRuntime first ≤ σ.vRuntime x

omit [DecidableEq Cpu] in
theorem Disciplined.readyIn (disciplined : Disciplined n σ t) {x : KThread Cpu} :
    ReadyIn σ cpu x ↔ x ∈ (t cpu).inorder := by
  rw [ReadyIn, inCfsTree_iff disciplined.queued]
  exact and_iff_left_of_imp disciplined.placed.ready

omit [DecidableEq Cpu] in
theorem Disciplined.selectsReady (disciplined : Disciplined n σ t) (cpu : Cpu) :
    SelectsReady σ cpu ((t cpu).inorder.head?.getD (.idle cpu)) := by
  have sorted := disciplined.sorted cpu
  have ready : ∀ x, ReadyIn σ cpu x ↔ x ∈ (t cpu).inorder := fun x => disciplined.readyIn
  cases order : (t cpu).inorder with
  | nil =>
    simp only [order, List.not_mem_nil, iff_false] at ready
    exact .inr ⟨rfl, ready⟩
  | cons first rest =>
    rw [order] at sorted
    simp only [order] at ready
    refine .inl ⟨(ready first).mpr List.mem_cons_self, fun x isReady => ?_⟩
    rcases List.mem_cons.mp ((ready x).mp isReady) with rfl | later
    · exact BitVec.le_refl _
    · exact List.rel_of_pairwise_cons sorted later

omit [DecidableEq Cpu] in
theorem Disciplined.selectsLeast_iff (disciplined : Disciplined n σ t) (cpu : Cpu) :
    SelectsLeast σ cpu ((t cpu).inorder.head?.getD (.idle cpu)) ↔ NoneBefore σ cpu := by
  have selects := disciplined.selectsReady cpu
  have cached : (σ.runQueue cpu).leftmost = (t cpu).inorder.head? := disciplined.queued.leftmost cpu
  rw [NoneBefore, cached]
  cases order : (t cpu).inorder.head? with
  | none =>
    have ready : ∀ x, ¬ ReadyIn σ cpu x := fun x isReady => by
      rw [disciplined.readyIn, List.head?_eq_none_iff.mp order] at isReady
      cases isReady
    constructor
    · exact fun least x => (least.idle rfl x).2
    · exact fun blocked => ⟨fun _ x => ⟨ready x, blocked x⟩, fun other => absurd rfl other,
        fun other => absurd rfl other⟩
  | some first =>
    have front : ReadyIn σ cpu first := disciplined.readyIn.mpr (List.mem_of_mem_head? order)
    rw [order, getD_some] at selects
    simp only [getD_some]
    constructor
    · intro least
      have other : first ≠ .idle cpu := fun same => (least.idle same first).1 front
      exact ⟨other, fun x runnable => least.least other x (.inr runnable)⟩
    · rintro ⟨other, before⟩
      obtain ⟨_, least⟩ := selects.resolve_right fun empty => empty.2 first front
      exact ⟨fun same => absurd same other, fun _ => .inl front, fun _ x candidate =>
        candidate.elim (least x) (before x)⟩

theorem yield_current (yielded : ptYieldThread fuel σ cpu = some σ') :
    ∃ σ₁ next, ptSelectNextThread fuel σ cpu = some (σ₁, next) ∧ σ'.current cpu = some next := by
  obtain ⟨⟨σ₁, next⟩, selected, rest⟩ := bind_eq_some_iff.mp yielded
  refine ⟨σ₁, next, selected, ?_⟩
  simp only [bind_eq_bind, bind_some, pure_def] at rest
  split at rest
  next =>
    obtain rfl := some.inj rest
    exact if_pos rfl
  next =>
    split at rest
    next =>
      obtain ⟨σ₂, queued, done⟩ := bind_eq_some_iff.mp rest
      obtain rfl := some.inj done
      exact if_pos rfl
    next =>
      obtain rfl := some.inj rest
      exact if_pos rfl

theorem Disciplined.yield_first (disciplined : Disciplined n σ t) (enough : n ≤ fuel)
    (yielded : ptYieldThread fuel σ cpu = some σ') :
    σ'.current cpu = some ((t cpu).inorder.head?.getD (.idle cpu)) := by
  obtain ⟨σ₁, next, selected, current⟩ := yield_current yielded
  obtain ⟨σ₂, t₂, next', selected', choice⟩ :=
    select_spec disciplined.queued cpu (Nat.le_trans (disciplined.size cpu) enough)
  cases selected.symm.trans selected'
  rw [current, choice.first]

end Selection

section Runs

/-- The scheduler when a tick has charged the thread that runs. -/
def charged (σ : Scheduler Cpu) (thread : KThread Cpu) (deltaTimeNs : BitVec 64) : Scheduler Cpu :=
  if σ.weight thread ≠ 0 then
    { σ with
      vRuntime := fun x => if x = thread then σ.vRuntime x + deltaTimeNs >>> weightShift 5 (σ.weight thread)
        else σ.vRuntime x }
  else σ

/-- The state in which an action calls `PtYieldThread`, and the processor, if it does. -/
def yieldOf (σ : Scheduler Cpu) : SchedulerAction Cpu → Option (Scheduler Cpu × Cpu)
  | .yield cpu => some (σ, cpu)
  | .tick cpu deltaTimeNs => do
      let thread ← σ.current cpu
      let σ := charged σ thread deltaTimeNs
      let candidate ← (σ.runQueue cpu).leftmost
      if σ.vRuntime candidate < σ.vRuntime thread then some (σ, cpu) else none
  | _ => none

theorem schedule_yields (yields : yieldOf σ action = some (σ₁, cpu)) :
    schedule fuel σ action = ptYieldThread fuel σ₁ cpu := by
  cases action with
  | yield _ =>
    cases yields
    rfl
  | tick _ deltaTimeNs =>
    obtain ⟨thread, runs, rest⟩ := bind_eq_some_iff.mp yields
    obtain ⟨candidate, first, rest⟩ := bind_eq_some_iff.mp rest
    obtain ⟨less, same⟩ := ite_none_right_eq_some.mp rest
    cases same
    simp only [schedule, ptSchedulerTick, runs]
    rw [charged] at first less ⊢
    simp only [first, if_pos less]
  | create | wake | block | setPriority => cases yields

theorem Disciplined.charge (disciplined : Disciplined n σ t) (runs : σ.current cpu = some thread)
    (deltaTimeNs : BitVec 64) : Disciplined n (charged σ thread deltaTimeNs) t := by
  rw [charged]
  split
  · refine disciplined.congr (fun _ => rfl) rfl rfl rfl fun i x member => if_neg ?_
    rintro rfl
    exact disciplined.placed.absent runs i member
  · exact disciplined

theorem Disciplined.yieldOf (disciplined : Disciplined n σ t) (yields : yieldOf σ action = some (σ₁, cpu)) :
    Disciplined n σ₁ t := by
  cases action with
  | yield _ =>
    cases yields
    exact disciplined
  | tick _ deltaTimeNs =>
    obtain ⟨thread, runs, rest⟩ := bind_eq_some_iff.mp yields
    obtain ⟨candidate, first, rest⟩ := bind_eq_some_iff.mp rest
    obtain ⟨less, same⟩ := ite_none_right_eq_some.mp rest
    cases same
    exact disciplined.charge runs deltaTimeNs
  | create | wake | block | setPriority => cases yields

/-- Where an action yields, the thread that its processor runs next is the right one in the tree, and
would be with the yielding thread in the tree exactly when that one does not come before it. -/
def YieldsReady (fuel : Nat) (σ : Scheduler Cpu) (action : SchedulerAction Cpu) : Prop :=
  ∀ σ₁ cpu, yieldOf σ action = some (σ₁, cpu) →
    ∃ σ' next, schedule fuel σ action = some σ' ∧ σ'.current cpu = some next ∧
      SelectsReady σ₁ cpu next ∧ (SelectsLeast σ₁ cpu next ↔ NoneBefore σ₁ cpu)

theorem Disciplined.yieldsReady (disciplined : Disciplined n σ t)
    (admitted : Executes σ action ∧ WakesParked σ action) (enough : n < fuel) : YieldsReady fuel σ action := by
  intro σ₁ cpu yields
  obtain ⟨σ', t', stepped, _⟩ := disciplined_schedule disciplined admitted enough
  have before : Disciplined n σ₁ t := disciplined.yieldOf yields
  have current := before.yield_first (Nat.le_of_lt enough) ((schedule_yields yields).symm.trans stepped)
  exact ⟨σ', _, stepped, current, before.selectsReady cpu, before.selectsLeast_iff cpu⟩

end Runs
end VeaOS.Pt
