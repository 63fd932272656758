import VeaOS.Foundation.Runs
import VeaOS.Rtl.RbCorrect

/-! The fair scheduler. Every processor has a run queue, a red-black tree of
threads linked through the `CfsNode` of each thread, so that all the trees lie
in one memory of nodes. -/
namespace VeaOS.Pt
open Foundation PointerTree Rtl

inductive KThreadState where
  | initialized
  | ready
  | running
  | standby
  | terminated
  | waiting
  deriving DecidableEq, Repr

/-- A thread is the idle thread of a processor, `PtSystemIdleThread[i]`, or one
that was created. -/
inductive KThread (Cpu : Type) where
  | idle (cpu : Cpu)
  | created (id : Nat)
  deriving DecidableEq

structure KRunQueue (Cpu : Type) where
  root : Option (KThread Cpu)
  leftmost : Option (KThread Cpu)
  currentThread : Option (KThread Cpu)
  totalWeight : BitVec 32
  runningTasks : BitVec 32

/-- The scheduler's part of every `KTHREAD`, the run queues, the thread that
each processor runs (`Prcb->CurrentThread`), and the threads created. -/
structure Scheduler (Cpu : Type) where
  state : KThread Cpu → KThreadState
  vRuntime : KThread Cpu → BitVec 64
  weight : KThread Cpu → BitVec 64
  priority : KThread Cpu → BitVec 8
  child : Side → KThread Cpu → Option (KThread Cpu)
  parent : KThread Cpu → Option (KThread Cpu)
  color : KThread Cpu → RbColor
  runQueue : Cpu → KRunQueue Cpu
  current : Cpu → Option (KThread Cpu)
  threadList : List (KThread Cpu)

namespace Scheduler
variable {Cpu : Type} [DecidableEq Cpu]

omit [DecidableEq Cpu] in
/-- The tree of one processor, in the memory shared by all of them. -/
def cfsTree (σ : Scheduler Cpu) (cpu : Cpu) : RbTree (KThread Cpu) :=
  ⟨σ.child, σ.parent, σ.color, (σ.runQueue cpu).root, (σ.runQueue cpu).leftmost⟩

def setRunQueue (σ : Scheduler Cpu) (cpu : Cpu) (queue : KRunQueue Cpu) : Scheduler Cpu :=
  { σ with runQueue := fun i => if i = cpu then queue else σ.runQueue i }

def setCfsTree (σ : Scheduler Cpu) (cpu : Cpu) (T : RbTree (KThread Cpu)) : Scheduler Cpu :=
  { σ with
    child := T.child
    parent := T.parent
    color := T.balance
    runQueue := fun i => if i = cpu then
      { σ.runQueue cpu with root := T.root, leftmost := T.leftmost } else σ.runQueue i }

def setState (σ : Scheduler Cpu) (thread : KThread Cpu) (state : KThreadState) : Scheduler Cpu :=
  { σ with state := fun x => if x = thread then state else σ.state x }

def setCurrent (σ : Scheduler Cpu) (cpu : Cpu) (thread : KThread Cpu) : Scheduler Cpu :=
  { σ with current := fun i => if i = cpu then some thread else σ.current i }

end Scheduler

open Scheduler
variable {Cpu : Type} [DecidableEq Cpu]

def ptCfsBaseWeight : BitVec 64 := 1024

omit [DecidableEq Cpu] in
def ptCfsCompareRoutine (σ : Scheduler Cpu) (threadA threadB : KThread Cpu) : Int :=
  if σ.vRuntime threadA < σ.vRuntime threadB then -1
  else if σ.vRuntime threadA > σ.vRuntime threadB then 1
  else 0

/-- The registered processors run their idle threads; the slots of the others
wait for them, marked ready. The source registers the processor it runs on. -/
def ptInitializeRunQueues (registered : Cpu → Bool) : Scheduler Cpu where
  state
    | .idle cpu => if registered cpu then .running else .ready
    | .created _ => .initialized
  vRuntime _ := 0
  weight
    | .idle _ => 1
    | .created _ => 0
  priority _ := 0
  child _ _ := none
  parent _ := none
  color _ := .black
  runQueue cpu := ⟨none, none, if registered cpu then some (.idle cpu) else none, 0, 0⟩
  current cpu := if registered cpu then some (.idle cpu) else none
  threadList := []

def ptSetThreadPriority (σ : Scheduler Cpu) (thread : KThread Cpu)
    (priority : BitVec 8) : Scheduler Cpu :=
  let priority := if priority.toInt < 0 then 0 else priority
  let shift := min (priority.toNat / 8) 5
  { σ with
    priority := fun x => if x = thread then priority else σ.priority x
    weight := fun x => if x = thread then ptCfsBaseWeight <<< shift else σ.weight x }

def ptEnqueueThreadCfs (fuel : Nat) (σ : Scheduler Cpu) (cpu : Cpu) (thread : KThread Cpu) :
    Option (Scheduler Cpu) := do
  let T := (((σ.cfsTree cpu).setChild .left thread none).setChild .right thread none).setParent thread none
  let σ := (σ.setCfsTree cpu T).setState thread .ready
  let T ← rtlInsertElementRb fuel (ptCfsCompareRoutine σ) (σ.cfsTree cpu) thread
  let σ := σ.setCfsTree cpu T
  let queue := σ.runQueue cpu
  return σ.setRunQueue cpu
    { queue with
      runningTasks := queue.runningTasks + 1
      totalWeight := queue.totalWeight + (σ.weight thread).setWidth 32 }

def ptPickNextThreadCfs (fuel : Nat) (σ : Scheduler Cpu) (cpu : Cpu) :
    Option (Scheduler Cpu × Option (KThread Cpu)) :=
  match (σ.runQueue cpu).leftmost with
  | none => some (σ.setRunQueue cpu { σ.runQueue cpu with currentThread := none }, none)
  | some next => do
      let T ← rtlDeleteElementRb fuel (σ.cfsTree cpu) next
      let σ := (σ.setCfsTree cpu T).setState next .running
      return (σ.setRunQueue cpu { σ.runQueue cpu with currentThread := some next }, some next)

def ptSelectNextThread (fuel : Nat) (σ : Scheduler Cpu) (cpu : Cpu) :
    Option (Scheduler Cpu × KThread Cpu) := do
  let (σ, picked) ← ptPickNextThreadCfs fuel σ cpu
  let next := picked.getD (.idle cpu)
  let σ := σ.setState next .running
  return (σ.setRunQueue cpu { σ.runQueue cpu with currentThread := some next }, next)

def ptYieldThread (fuel : Nat) (σ : Scheduler Cpu) (cpu : Cpu) : Option (Scheduler Cpu) := do
  let currentThread := σ.current cpu
  let (σ, next) ← ptSelectNextThread fuel σ cpu
  let σ ← match currentThread with
    | none => some σ
    | some thread =>
      if thread ≠ .idle cpu ∧ σ.state thread = .running then ptEnqueueThreadCfs fuel σ cpu thread
      else some σ
  return σ.setCurrent cpu next

def ptWakeThread (fuel : Nat) (σ : Scheduler Cpu) (cpu : Cpu) (thread : KThread Cpu) :
    Option (Scheduler Cpu × Bool) := do
  if σ.state thread ≠ .waiting then return (σ, false)
  return (← ptEnqueueThreadCfs fuel (σ.setState thread .ready) cpu thread, true)

/-- The halvings of a weight down to the base weight, at most five. -/
def weightShift : Nat → BitVec 64 → Nat
  | 0, _ => 0
  | left + 1, weight => if weight > ptCfsBaseWeight then weightShift left (weight >>> 1) + 1 else 0

def ptSchedulerTick (fuel : Nat) (σ : Scheduler Cpu) (cpu : Cpu) (deltaTimeNs : BitVec 64) :
    Option (Scheduler Cpu) :=
  match σ.current cpu with
  | none => some σ
  | some thread =>
    let charge := deltaTimeNs >>> weightShift 5 (σ.weight thread)
    let σ := if σ.weight thread ≠ 0 then
        { σ with vRuntime := fun x => if x = thread then σ.vRuntime x + charge else σ.vRuntime x }
      else σ
    match (σ.runQueue cpu).leftmost with
    | none => some σ
    | some candidate =>
      if σ.vRuntime candidate < σ.vRuntime thread then ptYieldThread fuel σ cpu else some σ

/-- A new thread, whose object and stack could be allocated. -/
def ptCreateSystemThread (fuel : Nat) (σ : Scheduler Cpu) (cpu : Cpu) (thread : KThread Cpu)
    (basePriority : BitVec 8) : Option (Scheduler Cpu) :=
  let σ := σ.setState thread .initialized
  let σ := { σ with
    child := fun s x => if x = thread then none else σ.child s x
    parent := fun x => if x = thread then none else σ.parent x
    color := fun x => if x = thread then .black else σ.color x
    priority := fun x => if x = thread then basePriority else σ.priority x
    weight := fun x => if x = thread then 1024 else σ.weight x
    vRuntime := fun x => if x = thread then 0 else σ.vRuntime x
    threadList := σ.threadList ++ [thread] }
  ptEnqueueThreadCfs fuel σ cpu thread

/-- A thread marks itself waiting, before it yields. -/
def blockCurrent (σ : Scheduler Cpu) (cpu : Cpu) : Scheduler Cpu :=
  match σ.current cpu with
  | none => σ
  | some thread => σ.setState thread .waiting

inductive SchedulerAction (Cpu : Type) where
  | create (cpu : Cpu) (thread : KThread Cpu) (basePriority : BitVec 8)
  | yield (cpu : Cpu)
  | wake (cpu : Cpu) (thread : KThread Cpu)
  | tick (cpu : Cpu) (deltaTimeNs : BitVec 64)
  | block (cpu : Cpu)
  | setPriority (thread : KThread Cpu) (priority : BitVec 8)

def schedule (fuel : Nat) (σ : Scheduler Cpu) : SchedulerAction Cpu → Option (Scheduler Cpu)
  | .create cpu thread basePriority => ptCreateSystemThread fuel σ cpu thread basePriority
  | .yield cpu => ptYieldThread fuel σ cpu
  | .wake cpu thread => (ptWakeThread fuel σ cpu thread).map Prod.fst
  | .tick cpu deltaTimeNs => ptSchedulerTick fuel σ cpu deltaTimeNs
  | .block cpu => some (blockCurrent σ cpu)
  | .setPriority thread priority => some (ptSetThreadPriority σ thread priority)

end VeaOS.Pt
