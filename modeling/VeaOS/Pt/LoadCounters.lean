import Mathlib.Algebra.GroupWithZero.Nat
import VeaOS.Pt.RunQueueInvariant

/-! The load of a run queue: how many threads its tree holds and the sum of
their weights. Putting a thread into the tree and taking it out of it count,
picking one does not, and a weight may change while its thread is counted. -/
namespace VeaOS.Pt
open Foundation PointerTree Rtl Scheduler Transition Function List
variable {Cpu : Type} [DecidableEq Cpu]

def ptDequeueThreadCfs (fuel : Nat) (σ : Scheduler Cpu) (cpu : Cpu) (thread : KThread Cpu) :
    Option (Scheduler Cpu) := do
  let T ← rtlDeleteElementRb fuel (σ.cfsTree cpu) thread
  let σ := σ.setCfsTree cpu T
  let queue := σ.runQueue cpu
  return σ.setRunQueue cpu
    { queue with
      runningTasks := if queue.runningTasks > 0 then queue.runningTasks - 1 else queue.runningTasks
      totalWeight := if queue.totalWeight.setWidth 64 ≥ σ.weight thread
        then queue.totalWeight - (σ.weight thread).setWidth 32 else 0 }

inductive CfsAction (Cpu : Type) where
  | enqueue (cpu : Cpu) (thread : KThread Cpu)
  | dequeue (cpu : Cpu) (thread : KThread Cpu)
  | pick (cpu : Cpu)
  | setPriority (thread : KThread Cpu) (priority : BitVec 8)

def cfsStep (fuel : Nat) (σ : Scheduler Cpu) : CfsAction Cpu → Option (Scheduler Cpu)
  | .enqueue cpu thread => ptEnqueueThreadCfs fuel σ cpu thread
  | .dequeue cpu thread => ptDequeueThreadCfs fuel σ cpu thread
  | .pick cpu => (ptPickNextThreadCfs fuel σ cpu).map Prod.fst
  | .setPriority thread priority => some (ptSetThreadPriority σ thread priority)

section Statement

omit [DecidableEq Cpu] in
/-- The thread is in the tree of a processor. -/
def InCfsTree (σ : Scheduler Cpu) (cpu : Cpu) (thread : KThread Cpu) : Prop :=
  (σ.cfsTree cpu).Reaches thread

/-- The counters are the number and the sum of the weights of the threads in the tree. -/
def LoadCounted (σ : Scheduler Cpu) (cpu : Cpu) : Prop :=
  ∃ threads : List (KThread Cpu), threads.Nodup ∧ (∀ x, x ∈ threads ↔ InCfsTree σ cpu x) ∧
    (σ.runQueue cpu).runningTasks.toNat = threads.length ∧
    (σ.runQueue cpu).totalWeight.toNat = (threads.map fun x => (σ.weight x).toNat).sum

/-- A thread is put into a tree only while it is in none, and taken out of the
tree that it is in. -/
def EnqueuesOff (σ : Scheduler Cpu) : CfsAction Cpu → Prop
  | .enqueue _ thread => ∀ i, ¬ InCfsTree σ i thread
  | .dequeue cpu thread => InCfsTree σ cpu thread
  | .pick _ | .setPriority _ _ => True

/-- Eight priorities share a weight, from 40 on all do, and a negative one counts as 0. -/
def priorityWeight (priority : BitVec 8) : BitVec 64 :=
  ptCfsBaseWeight <<< if priority.toInt < 0 then 0 else min (priority.toNat / 8) 5

/-- The counters have room for one more thread; nothing is picked; and a thread in
a tree has the weight of its new priority already. -/
def KeepsLoad (σ : Scheduler Cpu) : CfsAction Cpu → Prop
  | .enqueue cpu thread => (σ.runQueue cpu).runningTasks.toNat + 1 < 0x100000000 ∧
      (σ.runQueue cpu).totalWeight.toNat + (σ.weight thread).toNat < 0x100000000
  | .dequeue _ _ => True
  | .pick cpu => ∀ x, ¬ InCfsTree σ cpu x
  | .setPriority thread priority => (∃ cpu, InCfsTree σ cpu thread) →
      σ.weight thread = priorityWeight priority

structure QueuesEmpty (σ : Scheduler Cpu) : Prop where
  root (cpu) : (σ.runQueue cpu).root = none
  leftmost (cpu) : (σ.runQueue cpu).leftmost = none
  runningTasks (cpu) : (σ.runQueue cpu).runningTasks = 0
  totalWeight (cpu) : (σ.runQueue cpu).totalWeight = 0

end Statement

section Counters
variable {σ σ' : Scheduler Cpu} {t : Cpu → KeyTree (KThread Cpu) RbColor}

def load (σ : Scheduler Cpu) (threads : List (KThread Cpu)) : Nat :=
  (threads.map fun x => (σ.weight x).toNat).sum

omit [DecidableEq Cpu] in
theorem load_perm {l l' : List (KThread Cpu)} (same : l.Perm l') : load σ l = load σ l' :=
  (same.map _).sum_nat

omit [DecidableEq Cpu] in
theorem loadCounted_iff (queued : Queued σ t) : LoadCounted σ cpu ↔
    (σ.runQueue cpu).runningTasks.toNat = (t cpu).inorder.length ∧
    (σ.runQueue cpu).totalWeight.toNat = load σ (t cpu).inorder := by
  have distinct : (t cpu).inorder.Nodup := (queued.focus cpu).distinct
  constructor
  · rintro ⟨threads, nodup, members, tasks, weights⟩
    have same : threads.Perm (t cpu).inorder := by
      rw [perm_ext_iff_of_nodup nodup distinct]
      exact fun x => (members x).trans (queued.focus cpu).reaches_iff
    rw [tasks, weights, same.length_eq]
    exact ⟨rfl, load_perm same⟩
  · rintro ⟨tasks, weights⟩
    exact ⟨_, distinct, fun x => (queued.focus cpu).reaches_iff.symm, tasks, weights⟩

omit [DecidableEq Cpu] in
theorem inCfsTree_iff (queued : Queued σ t) : InCfsTree σ cpu x ↔ x ∈ (t cpu).inorder :=
  (queued.focus cpu).reaches_iff

omit [DecidableEq Cpu] in
theorem loadCounted_congr (trees : ∀ x, InCfsTree σ' cpu x ↔ InCfsTree σ cpu x)
    (tasks : (σ'.runQueue cpu).runningTasks = (σ.runQueue cpu).runningTasks)
    (weights : (σ'.runQueue cpu).totalWeight = (σ.runQueue cpu).totalWeight)
    (weight : ∀ x, InCfsTree σ cpu x → σ'.weight x = σ.weight x) :
    LoadCounted σ' cpu ↔ LoadCounted σ cpu := by
  unfold LoadCounted
  rw [tasks, weights]
  refine exists_congr fun threads => and_congr_right fun _ => ?_
  simp only [trees]
  refine and_congr_right fun members => and_congr_right fun _ => ?_
  rw [map_congr_left fun x member => by rw [weight x ((members x).mp member)]]

theorem enqueue_counters (done : ptEnqueueThreadCfs fuel σ cpu thread = some σ') :
    σ'.weight = σ.weight ∧
    (∀ i, i ≠ cpu → (σ'.runQueue i).runningTasks = (σ.runQueue i).runningTasks ∧
      (σ'.runQueue i).totalWeight = (σ.runQueue i).totalWeight) ∧
    (σ'.runQueue cpu).runningTasks = (σ.runQueue cpu).runningTasks + 1 ∧
    (σ'.runQueue cpu).totalWeight = (σ.runQueue cpu).totalWeight + (σ.weight thread).setWidth 32 := by
  obtain ⟨T, inserted, same⟩ := Option.bind_eq_some_iff.mp done
  cases same
  refine ⟨rfl, fun i apart => ?_, ?_, ?_⟩
  · simp [setRunQueue, setCfsTree, setState, apart]
  · simp [setRunQueue, setCfsTree, setState]
  · simp [setRunQueue, setCfsTree, setState]

theorem enqueue_counted (queued : Queued σ t) (absent : ∀ i, thread ∉ (t i).inorder)
    (counted : ∀ i, LoadCounted σ i) (done : ptEnqueueThreadCfs fuel σ cpu thread = some σ')
    (entered : Enqueued σ σ' t t' cpu thread) :
    (∀ i, LoadCounted σ' i) ↔ KeepsLoad σ (.enqueue cpu thread) := by
  obtain ⟨weight, others, tasks, weights⟩ := enqueue_counters done
  have elsewhere : ∀ i, i ≠ cpu → LoadCounted σ' i := by
    intro i apart
    rw [loadCounted_congr (fun x => ?_) (others i apart).1 (others i apart).2 fun x _ => by rw [weight]]
    · exact counted i
    · rw [inCfsTree_iff entered.queued, inCfsTree_iff queued, entered.members]
      simp [apart]
  have perm : ((t' cpu).inorder).Perm (thread :: (t cpu).inorder) := by
    refine (perm_ext_iff_of_nodup (entered.queued.focus cpu).distinct
      (nodup_cons.mpr ⟨absent cpu, (queued.focus cpu).distinct⟩)).mpr fun x => ?_
    simp only [Context.plug]
    rw [entered.members, mem_cons, or_comm]
    simp
  have sum : load σ' (t' cpu).inorder = (σ.weight thread).toNat + load σ (t cpu).inorder := by
    rw [load_perm perm, load, weight, map_cons, sum_cons, load]
  obtain ⟨number, total⟩ := (loadCounted_iff queued).mp (counted cpu)
  have here : LoadCounted σ' cpu ↔ KeepsLoad σ (.enqueue cpu thread) := by
    rw [loadCounted_iff entered.queued, perm.length_eq, sum, tasks, weights, KeepsLoad, length_cons,
      ← number, ← total]
    have one : (1 : BitVec 32).toNat = 1 := rfl
    simp only [BitVec.toNat_add, BitVec.toNat_setWidth, one]
    omega
  exact ⟨fun all => here.mp (all cpu), fun room i => by
    by_cases same : i = cpu
    · exact same ▸ here.mpr room
    · exact elsewhere i same⟩

theorem toNat_decrement {a : BitVec 32} (value : a.toNat = n + 1) :
    (if a > 0 then a - 1 else a).toNat = n := by
  have positive : a > 0 := by
    rw [gt_iff_lt, BitVec.lt_def, value]
    simp
  rw [if_pos positive, BitVec.toNat_sub_of_le (by simp [BitVec.le_def, value]), value]
  simp

theorem toNat_subtract {a : BitVec 32} {w : BitVec 64} (value : a.toNat = w.toNat + n) :
    (if a.setWidth 64 ≥ w then a - w.setWidth 32 else 0).toNat = n := by
  have bound := a.isLt
  have narrow : (w.setWidth 32).toNat = w.toNat := by
    rw [BitVec.toNat_setWidth, Nat.mod_eq_of_lt (by omega)]
  have wide : (a.setWidth 64).toNat = a.toNat := by
    rw [BitVec.toNat_setWidth, Nat.mod_eq_of_lt (by omega)]
  have enough : a.setWidth 64 ≥ w := by
    rw [ge_iff_le, BitVec.le_def, wide]
    omega
  rw [if_pos enough, BitVec.toNat_sub_of_le (by rw [BitVec.le_def, narrow]; omega), narrow]
  omega

theorem erased_load {T : RbTree (KThread Cpu)} {u : KeyTree (KThread Cpu) RbColor}
    (present : thread ∈ (t cpu).inorder) (left : u.inorder = (t cpu).inorder.erase thread) :
    (t cpu).inorder.length = u.inorder.length + 1 ∧
      load σ (t cpu).inorder = (σ.weight thread).toNat + load (σ.setCfsTree cpu T) u.inorder := by
  have perm := perm_cons_erase present
  rw [← left] at perm
  refine ⟨perm.length_eq, ?_⟩
  rw [load_perm perm, load, map_cons, sum_cons]
  rfl

theorem dequeue_spec (queued : Queued σ t) (present : thread ∈ (t cpu).inorder)
    (enough : (t cpu).size ≤ fuel) :
    ∃ σ' t', ptDequeueThreadCfs fuel σ cpu thread = some σ' ∧ Queued σ' t' ∧
      (∀ i, (t' i).size ≤ (t i).size) ∧ ((∀ i, LoadCounted σ i) → ∀ i, LoadCounted σ' i) := by
  obtain ⟨T, u, deleted, linked, left⟩ := erase_spec queued cpu present enough
  obtain ⟨length, sum⟩ := erased_load (T := T) present left
  let σ₁ := σ.setCfsTree cpu T
  let queue := σ₁.runQueue cpu
  let σ₂ := σ₁.setRunQueue cpu
    { queue with
      runningTasks := if queue.runningTasks > 0 then queue.runningTasks - 1 else queue.runningTasks
      totalWeight := if queue.totalWeight.setWidth 64 ≥ σ₁.weight thread
        then queue.totalWeight - (σ₁.weight thread).setWidth 32 else 0 }
  have trees : ∀ i, σ₂.cfsTree i = σ₁.cfsTree i := by
    intro i
    by_cases same : i = cpu
    · subst same
      simp [σ₂, queue, cfsTree, setRunQueue]
    · simp [σ₂, cfsTree, setRunQueue, same]
  have queued' : Queued σ₂ (update t cpu u) := linked.congr trees
  refine ⟨σ₂, _, ?_, queued', fun i => ?_, fun counted i => ?_⟩
  · simp only [ptDequeueThreadCfs, deleted]
    rfl
  · by_cases same : i = cpu
    · subst same
      rw [update_self, ← KeyTree.length_inorder, ← KeyTree.length_inorder]
      omega
    · exact Nat.le_of_eq (congrArg KeyTree.size (update_of_ne same u t))
  · by_cases same : i = cpu
    · subst same
      obtain ⟨number, total⟩ := (loadCounted_iff queued).mp (counted i)
      have tasks : (σ₂.runQueue i).runningTasks = if (σ.runQueue i).runningTasks > 0 then
          (σ.runQueue i).runningTasks - 1 else (σ.runQueue i).runningTasks := by
        simp [σ₂, σ₁, queue, setRunQueue, setCfsTree]
      have weights : (σ₂.runQueue i).totalWeight =
          if (σ.runQueue i).totalWeight.setWidth 64 ≥ σ.weight thread then
            (σ.runQueue i).totalWeight - (σ.weight thread).setWidth 32 else 0 := by
        simp [σ₂, σ₁, queue, setRunQueue, setCfsTree]
      rw [loadCounted_iff queued', update_self, tasks, weights]
      exact ⟨toNat_decrement (number.trans length), toNat_subtract (total.trans sum)⟩
    · rw [loadCounted_congr (σ := σ) (fun x => ?_)]
      · exact counted i
      · simp [σ₂, σ₁, setRunQueue, setCfsTree, same]
      · simp [σ₂, σ₁, setRunQueue, setCfsTree, same]
      · exact fun x _ => rfl
      · rw [inCfsTree_iff queued', inCfsTree_iff queued, update_of_ne same]

theorem pick_spec (queued : Queued σ t) (enough : (t cpu).size ≤ fuel) :
    ∃ σ' t', cfsStep fuel σ (.pick cpu) = some σ' ∧ Queued σ' t' ∧ (∀ i, (t' i).size ≤ (t i).size) ∧
      ((∀ i, LoadCounted σ i) → ((∀ i, LoadCounted σ' i) ↔ KeepsLoad σ (.pick cpu))) := by
  have cached := queued.leftmost cpu
  have leftmost : (σ.cfsTree cpu).leftmost = (σ.runQueue cpu).leftmost := rfl
  cases order : (t cpu).inorder with
  | nil =>
    rw [leftmost, order, head?_nil] at cached
    let σ₁ := σ.setRunQueue cpu { σ.runQueue cpu with currentThread := none }
    have queues : ∀ i, (σ₁.runQueue i).root = (σ.runQueue i).root ∧
        (σ₁.runQueue i).leftmost = (σ.runQueue i).leftmost ∧
        (σ₁.runQueue i).runningTasks = (σ.runQueue i).runningTasks ∧
        (σ₁.runQueue i).totalWeight = (σ.runQueue i).totalWeight := by
      intro i
      by_cases same : i = cpu
      · subst same
        simp [σ₁, setRunQueue]
      · simp [σ₁, setRunQueue, same]
    have trees : ∀ i, σ₁.cfsTree i = σ.cfsTree i := fun i => by
      simp only [cfsTree, (queues i).1, (queues i).2.1]
      rfl
    refine ⟨σ₁, t, ?_, queued.congr trees, fun i => Nat.le_refl _, fun counted => ?_⟩
    · simp only [cfsStep, pick_none cached]
      rfl
    · refine iff_of_true (fun i => ?_) fun x inside => ?_
      · refine (loadCounted_congr (σ := σ) (fun x => ?_) (queues i).2.2.1 (queues i).2.2.2 fun _ _ => rfl).mpr
          (counted i)
        rw [InCfsTree, trees]
        rfl
      · rw [inCfsTree_iff queued, order] at inside
        cases inside
  | cons next rest =>
    rw [leftmost, order, head?_cons] at cached
    have present : next ∈ (t cpu).inorder := by simp [order]
    obtain ⟨T, u, deleted, linked, left⟩ := erase_spec queued cpu present enough
    obtain ⟨length, -⟩ := erased_load (T := T) (σ := σ) present left
    let σ₁ := (σ.setCfsTree cpu T).setState next .running
    let σ₂ := σ₁.setRunQueue cpu { σ₁.runQueue cpu with currentThread := some next }
    have trees : ∀ i, σ₂.cfsTree i = (σ.setCfsTree cpu T).cfsTree i := by
      intro i
      by_cases same : i = cpu
      · subst same
        simp [σ₂, σ₁, cfsTree, setRunQueue, setState]
      · simp [σ₂, σ₁, cfsTree, setRunQueue, setState, same]
    have queued' : Queued σ₂ (update t cpu u) := linked.congr trees
    refine ⟨σ₂, _, ?_, queued', fun i => ?_, fun counted => ?_⟩
    · simp only [cfsStep, ptPickNextThreadCfs, cached, deleted]
      rfl
    · by_cases same : i = cpu
      · subst same
        rw [update_self, ← KeyTree.length_inorder, ← KeyTree.length_inorder]
        omega
      · exact Nat.le_of_eq (congrArg KeyTree.size (update_of_ne same u t))
    · refine iff_of_false (fun all => ?_) fun empty => empty next ((inCfsTree_iff queued).mpr present)
      have tasks : (σ₂.runQueue cpu).runningTasks = (σ.runQueue cpu).runningTasks := by
        simp [σ₂, σ₁, setRunQueue, setCfsTree, setState]
      have before := ((loadCounted_iff queued).mp (counted cpu)).1
      have after := ((loadCounted_iff queued').mp (all cpu)).1
      rw [update_self, tasks] at after
      omega

theorem setPriority_weight (σ : Scheduler Cpu) (thread : KThread Cpu) (priority : BitVec 8) :
    (ptSetThreadPriority σ thread priority).weight thread = priorityWeight priority := by
  simp only [ptSetThreadPriority, if_true, priorityWeight]
  split_ifs <;> rfl

theorem setPriority_counted (queued : Queued σ t) (counted : ∀ i, LoadCounted σ i)
    (thread : KThread Cpu) (priority : BitVec 8) :
    (∀ i, LoadCounted (ptSetThreadPriority σ thread priority) i) ↔
      KeepsLoad σ (.setPriority thread priority) := by
  let σ' := ptSetThreadPriority σ thread priority
  have queued' : Queued σ' t := queued.congr fun _ => rfl
  have others : ∀ x, x ≠ thread → σ'.weight x = σ.weight x := fun x apart => by
    simp [σ', ptSetThreadPriority, apart]
  have given : σ'.weight thread = priorityWeight priority := setPriority_weight σ thread priority
  constructor
  · rintro all ⟨cpu, inside⟩
    have present := (inCfsTree_iff queued).mp inside
    have before := ((loadCounted_iff queued).mp (counted cpu)).2
    have after := ((loadCounted_iff queued').mp (all cpu)).2
    have perm := perm_cons_erase present
    have rest : load σ' ((t cpu).inorder.erase thread) = load σ ((t cpu).inorder.erase thread) := by
      unfold load
      rw [map_congr_left fun x member => ?_]
      have distinct : (t cpu).inorder.Nodup := (queued.focus cpu).distinct
      rw [others x (distinct.mem_erase_iff.mp member).1]
    rw [load_perm perm, load, map_cons, sum_cons] at before after
    rw [← given]
    apply BitVec.eq_of_toNat_eq
    change load σ' _ = load σ _ at rest
    unfold load at rest
    have total : (σ'.runQueue cpu).totalWeight = (σ.runQueue cpu).totalWeight := rfl
    rw [total] at after
    omega
  · intro keeps i
    have weight : ∀ x, InCfsTree σ i x → σ'.weight x = σ.weight x := by
      intro x inside
      by_cases same : x = thread
      · subst same
        exact given.trans (keeps ⟨i, inside⟩).symm
      · exact others x same
    have same : LoadCounted σ' i ↔ LoadCounted σ i := loadCounted_congr (fun x => Iff.rfl) rfl rfl weight
    exact same.mpr (counted i)

end Counters

/-- The trees are trees, with as many threads in each as there were steps at most. -/
def Bounded (n : Nat) (σ : Scheduler Cpu) : Prop := ∃ t, Queued σ t ∧ ∀ i, (t i).size ≤ n

theorem cfsStep_spec {n : Nat} {σ : Scheduler Cpu} {action : CfsAction Cpu} (bounded : Bounded n σ)
    (off : EnqueuesOff σ action) (enough : n < fuel) :
    ∃ σ', cfsStep fuel σ action = some σ' ∧ Bounded (n + 1) σ' ∧
      ((∀ i, LoadCounted σ i) → ((∀ i, LoadCounted σ' i) ↔ KeepsLoad σ action)) := by
  obtain ⟨t, queued, size⟩ := bounded
  cases action with
  | enqueue cpu thread =>
    have absent : ∀ i, thread ∉ (t i).inorder := fun i member =>
      off i ((inCfsTree_iff queued).mpr member)
    obtain ⟨σ', t', done, entered⟩ :=
      enqueue_spec queued cpu absent (Nat.lt_of_le_of_lt (size cpu) enough)
    exact ⟨σ', done, ⟨t', entered.queued, fun i =>
      Nat.le_trans (entered.size i) (Nat.succ_le_succ (size i))⟩, fun counted =>
      enqueue_counted queued absent counted done entered⟩
  | dequeue cpu thread =>
    obtain ⟨σ', t', done, queued', smaller, counts⟩ := dequeue_spec queued
      ((inCfsTree_iff queued).mp off) (Nat.le_trans (size cpu) (Nat.le_of_lt enough))
    exact ⟨σ', done, ⟨t', queued', fun i => Nat.le_succ_of_le (Nat.le_trans (smaller i) (size i))⟩,
      fun counted => iff_of_true (counts counted) trivial⟩
  | pick cpu =>
    obtain ⟨σ', t', done, queued', smaller, exactly⟩ := pick_spec queued (Nat.le_trans (size cpu) (Nat.le_of_lt enough))
    exact ⟨σ', done, ⟨t', queued', fun i => Nat.le_succ_of_le (Nat.le_trans (smaller i) (size i))⟩, exactly⟩
  | setPriority thread priority =>
    exact ⟨_, rfl, ⟨t, queued.congr fun _ => rfl, fun i => Nat.le_succ_of_le (size i)⟩,
      fun counted => setPriority_counted queued counted thread priority⟩

namespace QueuesEmpty
variable {σ : Scheduler Cpu}

omit [DecidableEq Cpu] in
theorem queued (empty : QueuesEmpty σ) : Queued σ fun _ => .nil := by
  refine ⟨fun cpu => ?_, fun cpu => ⟨rfl, 0, rfl⟩, empty.leftmost, fun member => ?_⟩
  · exact ⟨trivial, empty.root cpu, nodup_nil, fun k _ => .refl _ k, rfl⟩
  · cases member

omit [DecidableEq Cpu] in
theorem counted (empty : QueuesEmpty σ) (cpu : Cpu) : LoadCounted σ cpu := by
  rw [loadCounted_iff empty.queued, empty.runningTasks, empty.totalWeight]
  exact ⟨rfl, rfl⟩

end QueuesEmpty

/-- In a run that queues no thread twice, the counters are right in every state
exactly if every step of the run keeps them so. -/
theorem load_counters {σ : Scheduler Cpu} {actions : List (CfsAction Cpu)} (empty : QueuesEmpty σ)
    (off : Along EnqueuesOff (cfsStep fuel) σ actions) (enough : actions.length ≤ fuel) :
    (∃ σ', exec (cfsStep fuel) σ actions = some σ') ∧ (∀ cpu, LoadCounted σ cpu) ∧
      (Along (fun σ action => ∀ σ', cfsStep fuel σ action = some σ' → ∀ cpu, LoadCounted σ' cpu)
          (cfsStep fuel) σ actions ↔
        Along KeepsLoad (cfsStep fuel) σ actions) := by
  have bounded : Bounded 0 σ := ⟨_, empty.queued, fun _ => Nat.le_refl 0⟩
  have bound : 0 + actions.length ≤ actions.length := by omega
  refine ⟨?_, empty.counted, ?_⟩
  · obtain ⟨σ', ended, -⟩ := exec_invariant (P := Bounded) (fun bounded off room => by
      obtain ⟨σ', done, next, -⟩ := cfsStep_spec bounded off (Nat.lt_of_lt_of_le room enough)
      exact ⟨σ', done, next⟩) bounded off bound
    exact ⟨σ', ended⟩
  · exact along_exact (P := Bounded) (Q := fun σ => ∀ cpu, LoadCounted σ cpu)
      (fun bounded off room => cfsStep_spec bounded off (Nat.lt_of_lt_of_le room enough))
      bounded empty.counted off bound

omit [DecidableEq Cpu] in
theorem not_inCfsTree {σ : Scheduler Cpu} (empty : (σ.runQueue cpu).root = none) : ¬ InCfsTree σ cpu x := by
  intro inside
  induction inside with
  | root found => exact absurd (empty.symm.trans found) (by simp)
  | child _ _ ih => exact ih

theorem load_counters_sleep :
    (∃ σ', exec (cfsStep 3) (ptInitializeRunQueues fun _ : Unit => true)
      [.setPriority (.created 0) 8, .enqueue () (.created 0), .dequeue () (.created 0)] = some σ') ∧
    (∀ cpu, LoadCounted (ptInitializeRunQueues fun _ : Unit => true) cpu) ∧
    (Along (fun σ action => ∀ σ', cfsStep 3 σ action = some σ' → ∀ cpu, LoadCounted σ' cpu) (cfsStep 3)
        (ptInitializeRunQueues fun _ : Unit => true)
        [.setPriority (.created 0) 8, .enqueue () (.created 0), .dequeue () (.created 0)] ↔
      Along KeepsLoad (cfsStep 3) (ptInitializeRunQueues fun _ : Unit => true)
        [.setPriority (.created 0) 8, .enqueue () (.created 0), .dequeue () (.created 0)]) := by
  apply load_counters
  · exact ⟨fun _ => rfl, fun _ => rfl, fun _ => rfl, fun _ => rfl⟩
  · refine ⟨trivial, fun σ₁ stepped => ?_⟩
    obtain rfl := Option.some.inj stepped
    refine ⟨fun i => not_inCfsTree rfl, fun σ₂ stepped => ?_⟩
    obtain rfl := Option.some.inj stepped
    exact ⟨.root rfl, fun σ₃ stepped => trivial⟩
  · decide

/-- A thread that is picked stays on the counters of an empty tree. -/
theorem picked_still_counted :
    Along EnqueuesOff (cfsStep 3) (ptInitializeRunQueues fun _ : Unit => true)
      [.setPriority (.created 0) 8, .enqueue () (.created 0), .pick ()] ∧
    ∃ σ, exec (cfsStep 3) (ptInitializeRunQueues fun _ : Unit => true)
      [.setPriority (.created 0) 8, .enqueue () (.created 0), .pick ()] = some σ ∧
      ¬ LoadCounted σ () := by
  constructor
  · refine ⟨trivial, fun σ₁ stepped => ?_⟩
    obtain rfl := Option.some.inj stepped
    refine ⟨fun i => not_inCfsTree rfl, fun σ₂ stepped => ?_⟩
    obtain rfl := Option.some.inj stepped
    exact ⟨trivial, fun σ₃ stepped => trivial⟩
  · refine ⟨_, rfl, fun counted => ?_⟩
    obtain ⟨threads, -, members, tasks, -⟩ := counted
    cases threads with
    | nil => cases tasks
    | cons x rest => exact not_inCfsTree rfl ((members x).mp mem_cons_self)

end VeaOS.Pt
