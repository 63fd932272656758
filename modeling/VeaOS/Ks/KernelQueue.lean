import Mathlib.Data.List.Basic

/-! Kernel queues. An entry goes onto the list of the queue or straight into the
wait block of the first waiter; a queue lets a bounded number of threads run. -/
namespace VeaOS.Ks

structure KQueue (Thread Entry : Type) where
  signalState : Int
  waitListHead : List Thread
  entryListHead : List Entry
  currentCount : Nat
  maximumCount : Nat

def ksInitializeQueue (Thread Entry : Type) (count : Nat) : KQueue Thread Entry where
  signalState := 0
  waitListHead := []
  entryListHead := []
  currentCount := 0
  maximumCount := count

/-- Where a thread is in `KsRemoveQueue`, between the sections under a queue's lock. -/
inductive RemovePoint (Queue : Type) where
  | outside
  /-- At the head of the loop. -/
  | testing (queue : Queue) (timeout : Option Int)
  | waiting (queue : Queue) (timeout : Option Int)
  /-- Off the wait list with an entry, and not woken yet. -/
  | handed (queue : Queue) (timeout : Option Int)
  /-- Returned from `PtYieldThread`. -/
  | woken (queue : Queue) (timeout : Option Int)
  deriving DecidableEq

/-- What `KsRemoveQueue` uses of a thread; `object`, `waitResult` and `waitKey`
are those of its first wait block. -/
structure QueueThread (Queue Entry : Type) where
  queue : Option Queue
  object : Option Queue
  waitResult : Option Entry
  waitKey : Nat
  waitStatus : Nat
  point : RemovePoint Queue

inductive QueueEvent (Queue Thread Entry : Type) where
  | inserted (queue : Queue) (entry : Entry) (listed : Bool)
  | delivered (thread : Thread) (queue : Queue) (entry : Entry) (listed : Bool)

structure QueueState (Queue Thread Entry : Type) where
  queue : Queue → KQueue Thread Entry
  thread : Thread → QueueThread Queue Entry
  /-- Insertions and returns, the latest first. -/
  events : List (QueueEvent Queue Thread Entry)
  /-- `KsiSatisfyThreadWait` has used an object pointer that it never wrote. -/
  faulted : Bool

def statusTimeout : Nat := 0x102

inductive QueueAction (Queue Thread Entry : Type) where
  | insert (queue : Queue) (entry : Entry)
  /-- `KsRemoveQueue` up to its loop. -/
  | remove (thread : Thread) (queue : Queue) (timeout : Option Int)
  | test (thread : Thread)
  /-- `PtWakeThread` of the thread that was handed an entry, after the lock is released. -/
  | wake (thread : Thread)
  /-- The timer of a thread that waits expires. -/
  | expire (thread : Thread)
  | resume (thread : Thread)

variable {Queue Thread Entry : Type} [DecidableEq Queue] [DecidableEq Thread]

namespace KQueue

def admits (q : KQueue Thread Entry) : Prop :=
  q.maximumCount = 0 ∨ q.currentCount < q.maximumCount

instance (q : KQueue Thread Entry) : Decidable q.admits :=
  inferInstanceAs (Decidable (_ ∨ _))

def append (q : KQueue Thread Entry) (entry : Entry) : KQueue Thread Entry :=
  { q with entryListHead := q.entryListHead ++ [entry], signalState := q.signalState + 1 }

end KQueue

namespace QueueState
variable (σ : QueueState Queue Thread Entry)

def setQueue (queue : Queue) (q : KQueue Thread Entry) : QueueState Queue Thread Entry :=
  { σ with queue := Function.update σ.queue queue q }

def setThread (thread : Thread) (t : QueueThread Queue Entry) : QueueState Queue Thread Entry :=
  { σ with thread := Function.update σ.thread thread t }

def record (event : QueueEvent Queue Thread Entry) : QueueState Queue Thread Entry :=
  { σ with events := event :: σ.events }

end QueueState

namespace QueueThread
variable (t : QueueThread Queue Entry)

def goto (point : RemovePoint Queue) : QueueThread Queue Entry := { t with point := point }

def setQueue (queue : Option Queue) : QueueThread Queue Entry := { t with queue := queue }

/-- The wait block of a thread that is handed an entry. -/
def hand (entry : Entry) : QueueThread Queue Entry :=
  { t with
    object := none
    waitResult := some entry
    waitKey := 1
    waitStatus := 0
    point := match t.point with
      | .waiting queue timeout => .handed queue timeout
      | point => point }

/-- The wait block of a thread that begins to wait. -/
def block (queue : Queue) (timeout : Option Int) : QueueThread Queue Entry :=
  { t with
    object := some queue
    waitResult := none
    waitKey := 0
    waitStatus := 0
    point := .waiting queue timeout }

def expire (queue : Queue) (timeout : Option Int) : QueueThread Queue Entry :=
  { t with object := none, waitStatus := 0, point := .woken queue timeout }

def clearWait : QueueThread Queue Entry :=
  { t with object := none, waitResult := none, waitKey := 0 }

end QueueThread

/-- The section of `KsInsertQueue` under the queue's lock. -/
def ksInsertQueue (σ : QueueState Queue Thread Entry) (queue : Queue) (entry : Entry) :
    QueueState Queue Thread Entry :=
  let q := σ.queue queue
  match q.waitListHead with
  | waiter :: rest =>
    if q.admits then
      let q := { q with waitListHead := rest, currentCount := q.currentCount + 1 }
      ((σ.setThread waiter ((σ.thread waiter).hand entry)).setQueue queue q).record
        (.inserted queue entry false)
    else (σ.setQueue queue (q.append entry)).record (.inserted queue entry true)
  | [] => (σ.setQueue queue (q.append entry)).record (.inserted queue entry true)

/-- The thread leaves the queue it took its last entry from. -/
def leavePrevious (σ : QueueState Queue Thread Entry) (thread : Thread) : QueueState Queue Thread Entry :=
  match (σ.thread thread).queue with
  | some previous =>
    let q := σ.queue previous
    let q := { q with currentCount := if 0 < q.currentCount then q.currentCount - 1 else q.currentCount }
    (σ.setQueue previous q).setThread thread ((σ.thread thread).setQueue none)
  | none => σ

/-- The section at the head of the loop: the thread takes an entry, gives up or waits. -/
def testQueue (σ : QueueState Queue Thread Entry) (thread : Thread) (queue : Queue)
    (timeout : Option Int) : QueueState Queue Thread Entry :=
  let q := σ.queue queue
  let t := σ.thread thread
  match q.entryListHead with
  | entry :: rest =>
    if q.admits then
      let q := { q with
        entryListHead := rest
        signalState := q.signalState - 1
        currentCount := q.currentCount + 1 }
      ((σ.setQueue queue q).setThread thread ((t.setQueue (some queue)).goto .outside)).record
        (.delivered thread queue entry true)
    else wait q t
  | [] => wait q t
where
  wait (q : KQueue Thread Entry) (t : QueueThread Queue Entry) : QueueState Queue Thread Entry :=
    if timeout = some 0 then σ.setThread thread (t.goto .outside)
    else
      (σ.setQueue queue { q with waitListHead := q.waitListHead ++ [thread] }).setThread thread
        (t.block queue timeout)

/-- `KsiCheckTimerExpiration` and `KsiSatisfyThreadWait` on the timer of a thread
that waits: it leaves the wait list with status zero. -/
def expireWait (σ : QueueState Queue Thread Entry) (thread : Thread) (queue : Queue)
    (timeout : Option Int) : QueueState Queue Thread Entry :=
  let q := σ.queue queue
  (σ.setQueue queue { q with waitListHead := q.waitListHead.erase thread }).setThread thread
    ((σ.thread thread).expire queue timeout)

/-- The section after the wait, and the way back to the loop or out of it. -/
def resumeWait (σ : QueueState Queue Thread Entry) (thread : Thread) (queue : Queue)
    (timeout : Option Int) : QueueState Queue Thread Entry :=
  let q := σ.queue queue
  let t := σ.thread thread
  let q := if t.object ≠ none then { q with waitListHead := q.waitListHead.erase thread } else q
  let q := if t.waitResult ≠ none ∧ t.waitKey = 0 then { q with currentCount := q.currentCount + 1 } else q
  let σ := σ.setQueue queue q
  match t.waitResult with
  | some entry =>
    (σ.setThread thread ((t.clearWait.setQueue (some queue)).goto .outside)).record
      (.delivered thread queue entry false)
  | none =>
    if t.waitStatus = statusTimeout % 0x100 then σ.setThread thread (t.clearWait.goto .outside)
    else σ.setThread thread (t.clearWait.goto (.testing queue timeout))

def queueStep (σ : QueueState Queue Thread Entry) :
    QueueAction Queue Thread Entry → Option (QueueState Queue Thread Entry)
  | .insert queue entry => some (ksInsertQueue σ queue entry)
  | .remove thread queue timeout =>
    match (σ.thread thread).point with
    | .outside =>
      let σ := leavePrevious σ thread
      some (σ.setThread thread ((σ.thread thread).goto (.testing queue timeout)))
    | _ => none
  | .test thread =>
    match (σ.thread thread).point with
    | .testing queue timeout => some (testQueue σ thread queue timeout)
    | _ => none
  | .wake thread =>
    match (σ.thread thread).point with
    | .handed queue timeout => some (σ.setThread thread ((σ.thread thread).goto (.woken queue timeout)))
    | _ => none
  | .expire thread =>
    match (σ.thread thread).point with
    | .waiting queue (some timeout) => some (expireWait σ thread queue (some timeout))
    -- The first wait block names no object, so that none is collected and the
    -- signal of `Objects[1]` is counted down, which was never written.
    | .handed _ (some _) => some { σ with faulted := true }
    | _ => none
  | .resume thread =>
    match (σ.thread thread).point with
    | .woken queue timeout => some (resumeWait σ thread queue timeout)
    | _ => none

end VeaOS.Ks
