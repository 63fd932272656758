import VeaOS.Foundation.Census
import VeaOS.Ks.KernelQueue

/-! One queue as its clients see it: who runs for it, who waits, and what has
been inserted and delivered. It says nothing of other queues or of wait blocks. -/
namespace VeaOS.Ks
open Foundation List

inductive QueueRole (Entry : Type) where
  | away
  | running
  | waiting
  | handed (entry : Entry)
  | testing
  deriving DecidableEq

namespace QueueRole
variable {Entry : Type}

def runs : QueueRole Entry → Bool
  | .running => true
  | _ => false

def isHanded : QueueRole Entry → Bool
  | .handed _ => true
  | _ => false

def hasEntry [DecidableEq Entry] (entry : Entry) : QueueRole Entry → Bool
  | .handed held => held = entry
  | _ => false

def tests : QueueRole Entry → Bool
  | .testing => true
  | _ => false

end QueueRole

structure QueueView (Queue Thread Entry : Type) where
  queue : KQueue Thread Entry
  role : Thread → QueueRole Entry
  log : List (QueueEvent Queue Thread Entry)

variable {Queue Thread Entry : Type} [DecidableEq Thread] [DecidableEq Entry]

section Logs
variable (log : List (QueueEvent Queue Thread Entry))

def entryInsertions (entry : Entry) : Nat :=
  log.countP fun
    | .inserted _ e _ => e = entry
    | .delivered .. => false

def entryDeliveries (entry : Entry) : Nat :=
  log.countP fun
    | .delivered _ _ e _ => e = entry
    | .inserted .. => false

/-- The entries put on the list, in the order of their insertion. -/
def listedEntries : List (QueueEvent Queue Thread Entry) → List Entry
  | [] => []
  | .inserted _ entry true :: log => listedEntries log ++ [entry]
  | _ :: log => listedEntries log

/-- The entries taken from the list, in the order in which they were. -/
def takenEntries : List (QueueEvent Queue Thread Entry) → List Entry
  | [] => []
  | .delivered _ _ entry true :: log => takenEntries log ++ [entry]
  | _ :: log => takenEntries log

end Logs

namespace QueueView
variable (v : QueueView Queue Thread Entry)

def setRole (thread : Thread) (role : QueueRole Entry) : QueueView Queue Thread Entry :=
  { v with role := Function.update v.role thread role }

def setQueue (queue : KQueue Thread Entry) : QueueView Queue Thread Entry :=
  { v with queue := queue }

def record (event : QueueEvent Queue Thread Entry) : QueueView Queue Thread Entry :=
  { v with log := event :: v.log }

def release : KQueue Thread Entry :=
  { v.queue with currentCount :=
      if 0 < v.queue.currentCount then v.queue.currentCount - 1 else v.queue.currentCount }

end QueueView

/-- Whether a step takes a thread away from the queue it runs for. -/
inductive Departure where
  | leaves
  | rejoins
  | stays

inductive ServiceStep (v : QueueView Queue Thread Entry) :
    Departure → QueueView Queue Thread Entry → Prop where
  | enter (t : Thread) : v.role t = .away → ServiceStep v .stays (v.setRole t .testing)
  | leave (t : Thread) : v.role t = .running →
      ServiceStep v .leaves ((v.setQueue v.release).setRole t .away)
  /-- A thread that runs for the queue comes back to it. -/
  | rejoin (t : Thread) : v.role t = .running →
      ServiceStep v .rejoins ((v.setQueue v.release).setRole t .testing)
  | hand (t : Thread) (rest : List Thread) (queue : Queue) (entry : Entry) :
      v.queue.waitListHead = t :: rest → v.queue.admits →
      ServiceStep v .stays (((v.setQueue { v.queue with
        waitListHead := rest, currentCount := v.queue.currentCount + 1 }).setRole t (.handed entry)).record
          (.inserted queue entry false))
  | append (queue : Queue) (entry : Entry) : v.queue.waitListHead = [] ∨ ¬ v.queue.admits →
      ServiceStep v .stays ((v.setQueue (v.queue.append entry)).record (.inserted queue entry true))
  | take (t : Thread) (queue : Queue) (entry : Entry) (rest : List Entry) : v.role t = .testing →
      v.queue.entryListHead = entry :: rest → v.queue.admits →
      ServiceStep v .stays (((v.setQueue { v.queue with
        entryListHead := rest
        signalState := v.queue.signalState - 1
        currentCount := v.queue.currentCount + 1 }).setRole t .running).record
          (.delivered t queue entry true))
  | giveUp (t : Thread) : v.role t = .testing → v.queue.entryListHead = [] ∨ ¬ v.queue.admits →
      ServiceStep v .stays (v.setRole t .away)
  | wait (t : Thread) : v.role t = .testing → v.queue.entryListHead = [] ∨ ¬ v.queue.admits →
      ServiceStep v .stays ((v.setQueue { v.queue with
        waitListHead := v.queue.waitListHead ++ [t] }).setRole t .waiting)
  | expire (t : Thread) : v.role t = .waiting →
      ServiceStep v .stays ((v.setQueue { v.queue with
        waitListHead := v.queue.waitListHead.erase t }).setRole t .away)
  | resume (t : Thread) (queue : Queue) (entry : Entry) : v.role t = .handed entry →
      ServiceStep v .stays ((v.setRole t .running).record (.delivered t queue entry false))

/-- The books of one queue: where each entry is, and who is counted. -/
structure Served (v : QueueView Queue Thread Entry) : Prop where
  delivered (entry : Entry) : entryInsertions v.log entry =
    entryDeliveries v.log entry + v.queue.entryListHead.count entry +
      census (QueueRole.hasEntry entry) v.role
  ordered : listedEntries v.log = takenEntries v.log ++ v.queue.entryListHead
  signalState : v.queue.signalState = v.queue.entryListHead.length
  currentCount : v.queue.currentCount =
    census QueueRole.runs v.role + census QueueRole.isHanded v.role
  maximum : v.queue.maximumCount ≠ 0 → v.queue.currentCount ≤ v.queue.maximumCount
  waiting {t : Thread} : t ∈ v.queue.waitListHead ↔ v.role t = .waiting
  once : v.queue.waitListHead.Nodup

section Steps
variable [Finite Thread] {v v' : QueueView Queue Thread Entry} {t : Thread} {p r : QueueRole Entry}

theorem Served.move (served : Served v) (before : v.role t = p)
    (role : v'.role = Function.update v.role t r)
    (delivered : ∀ e, entryInsertions v'.log e + entryDeliveries v.log e + v.queue.entryListHead.count e +
        (p.hasEntry e).toNat =
      entryInsertions v.log e + entryDeliveries v'.log e + v'.queue.entryListHead.count e + (r.hasEntry e).toNat)
    (ordered : listedEntries v'.log = takenEntries v'.log ++ v'.queue.entryListHead)
    (signalState : v'.queue.signalState = v'.queue.entryListHead.length)
    (currentCount : v'.queue.currentCount + p.runs.toNat + p.isHanded.toNat =
      v.queue.currentCount + r.runs.toNat + r.isHanded.toNat)
    (maximum : v'.queue.maximumCount ≠ 0 → v'.queue.currentCount ≤ v'.queue.maximumCount)
    (waiting : ∀ x, x ∈ v'.queue.waitListHead ↔ if x = t then r = .waiting else x ∈ v.queue.waitListHead)
    (once : v'.queue.waitListHead.Nodup) : Served v' := by
  subst before
  constructor
  case delivered =>
    intro e
    have held := census_update (QueueRole.hasEntry e) v.role t r
    have old := served.delivered e
    have change := delivered e
    rw [← role] at held
    omega
  case ordered => exact ordered
  case signalState => exact signalState
  case currentCount =>
    have runs := census_update QueueRole.runs v.role t r
    have handed := census_update QueueRole.isHanded v.role t r
    have old := served.currentCount
    rw [← role] at runs handed
    omega
  case maximum => exact maximum
  case waiting =>
    intro x
    rw [waiting, role]
    split
    next same => rw [same, Function.update_self]
    next other => rw [Function.update_of_ne other, served.waiting]
  case once => exact once

omit [DecidableEq Thread] [DecidableEq Entry] [Finite Thread] in
theorem KQueue.admits_maximum {q : KQueue Thread Entry} (admits : q.admits) :
    q.maximumCount ≠ 0 → q.currentCount + 1 ≤ q.maximumCount :=
  admits.resolve_left

omit [DecidableEq Thread] in
theorem Served.release_count (served : Served v) (running : v.role t = .running) :
    v.release.currentCount + 1 = v.queue.currentCount := by
  have some := census_pos.mpr ⟨t, show (v.role t).runs = true by rw [running]; rfl⟩
  have count := served.currentCount
  have positive : 0 < v.queue.currentCount := by omega
  rw [QueueView.release, if_pos positive]
  exact Nat.sub_one_add_one (Nat.ne_of_gt positive)

omit [Finite Thread] in
theorem Served.off_list (served : Served v) (before : v.role t ≠ .waiting) (after : r ≠ .waiting)
    (x : Thread) : x ∈ v.queue.waitListHead ↔ if x = t then r = .waiting else x ∈ v.queue.waitListHead := by
  split
  next same => exact iff_of_false (fun inside => before (same ▸ served.waiting.mp inside)) after
  next => rfl

theorem Served.step (served : Served v) (stepped : ServiceStep v departure v') : Served v' := by
  cases stepped with
  | enter t away =>
    apply served.move away rfl
    case delivered => exact fun _ => rfl
    case ordered => exact served.ordered
    case signalState => exact served.signalState
    case currentCount => rfl
    case maximum => exact served.maximum
    case waiting => exact served.off_list (by rw [away]; nofun) nofun
    case once => exact served.once
  | leave t running | rejoin t running =>
    have count := served.release_count running
    apply served.move running rfl
    case delivered => exact fun _ => rfl
    case ordered => exact served.ordered
    case signalState => exact served.signalState
    case currentCount => exact count
    case maximum => exact fun bounded => (Nat.le_succ _).trans (count.trans_le (served.maximum bounded))
    case waiting => exact served.off_list (by rw [running]; nofun) nofun
    case once => exact served.once
  | hand t rest _ entry list admits =>
    have inside : t ∈ v.queue.waitListHead := list ▸ mem_cons_self
    obtain ⟨absent, distinct⟩ := nodup_cons.mp (list ▸ served.once)
    apply served.move (served.waiting.mp inside) rfl
    case delivered =>
      intro e
      simp only [QueueView.record, QueueView.setRole, QueueView.setQueue, entryInsertions, entryDeliveries,
        countP_cons, QueueRole.hasEntry]
      by_cases same : entry = e
      · simp [same]
        omega
      · simp [same]
    case ordered => exact served.ordered
    case signalState => exact served.signalState
    case currentCount => rfl
    case maximum => exact KQueue.admits_maximum admits
    case waiting =>
      intro x
      show x ∈ rest ↔ _
      split
      next same => exact iff_of_false (same ▸ absent) nofun
      next other => rw [list, mem_cons, or_iff_right other]
    case once => exact distinct
  | append _ entry refused =>
    constructor
    case delivered =>
      intro e
      have old := served.delivered e
      simp only [QueueView.record, QueueView.setQueue, KQueue.append, entryInsertions, entryDeliveries,
        countP_cons, count_append, count_singleton] at old ⊢
      by_cases same : entry = e
      · simp [same]
        omega
      · simp [same]
        omega
    case ordered =>
      show listedEntries v.log ++ [entry] = takenEntries v.log ++ (v.queue.entryListHead ++ [entry])
      rw [served.ordered, append_assoc]
    case signalState =>
      show v.queue.signalState + 1 = ((v.queue.entryListHead ++ [entry]).length : Int)
      rw [served.signalState, length_append]
      rfl
    case currentCount => exact served.currentCount
    case maximum => exact served.maximum
    case waiting => exact served.waiting
    case once => exact served.once
  | take t _ entry rest testing list admits =>
    apply served.move testing rfl
    case delivered =>
      intro e
      simp only [QueueView.record, QueueView.setRole, QueueView.setQueue, entryInsertions, entryDeliveries,
        countP_cons, QueueRole.hasEntry, list, count_cons]
      by_cases same : entry = e
      · simp [same]
        omega
      · simp [same]
    case ordered =>
      show listedEntries v.log = takenEntries v.log ++ [entry] ++ rest
      rw [served.ordered, list, append_assoc]
      rfl
    case signalState =>
      show v.queue.signalState - 1 = (rest.length : Int)
      rw [served.signalState, list, length_cons]
      omega
    case currentCount => rfl
    case maximum => exact KQueue.admits_maximum admits
    case waiting => exact served.off_list (by rw [testing]; nofun) nofun
    case once => exact served.once
  | giveUp t testing refused =>
    apply served.move testing rfl
    case delivered => exact fun _ => rfl
    case ordered => exact served.ordered
    case signalState => exact served.signalState
    case currentCount => rfl
    case maximum => exact served.maximum
    case waiting => exact served.off_list (by rw [testing]; nofun) nofun
    case once => exact served.once
  | wait t testing refused =>
    have absent : t ∉ v.queue.waitListHead := by
      rw [served.waiting, testing]
      nofun
    apply served.move testing rfl
    case delivered => exact fun _ => rfl
    case ordered => exact served.ordered
    case signalState => exact served.signalState
    case currentCount => rfl
    case maximum => exact served.maximum
    case waiting =>
      intro x
      show x ∈ v.queue.waitListHead ++ [t] ↔ _
      rw [mem_append, mem_singleton]
      split
      next same => exact iff_of_true (Or.inr same) rfl
      next other => exact or_iff_left other
    case once =>
      exact nodup_append.mpr ⟨served.once, nodup_singleton t, by
        rintro x inside y only rfl
        exact absent (mem_singleton.mp only ▸ inside)⟩
  | expire t waiting =>
    apply served.move waiting rfl
    case delivered => exact fun _ => rfl
    case ordered => exact served.ordered
    case signalState => exact served.signalState
    case currentCount => rfl
    case maximum => exact served.maximum
    case waiting =>
      intro x
      show x ∈ v.queue.waitListHead.erase t ↔ _
      rw [served.once.mem_erase_iff]
      split
      next same => exact iff_of_false (fun inside => inside.1 same) nofun
      next other => exact and_iff_right other
    case once => exact served.once.erase t
  | resume t _ entry handed =>
    apply served.move handed rfl
    case delivered =>
      intro e
      simp only [QueueView.record, QueueView.setRole, entryInsertions, entryDeliveries, countP_cons,
        QueueRole.hasEntry]
      by_cases same : entry = e
      · simp [same]
        omega
      · simp [same]
    case ordered => exact served.ordered
    case signalState => exact served.signalState
    case currentCount => rfl
    case maximum => exact served.maximum
    case waiting => exact served.off_list (by rw [handed]; nofun) nofun
    case once => exact served.once

/-- The list holds an entry and a thread waits. -/
def Backlog (v : QueueView Queue Thread Entry) : Prop :=
  v.queue.entryListHead ≠ [] ∧ v.queue.waitListHead ≠ []

/-- A queue with a backlog lets no more threads run. -/
def Saturated (v : QueueView Queue Thread Entry) : Prop :=
  Backlog v → v.queue.maximumCount ≠ 0 ∧ v.queue.maximumCount ≤ v.queue.currentCount

/-- A queue with a backlog would let no more threads run if all that are about to
test it had taken an entry. -/
def Heeded (v : QueueView Queue Thread Entry) : Prop :=
  Backlog v → v.queue.maximumCount ≠ 0 ∧
    v.queue.maximumCount ≤ v.queue.currentCount + census QueueRole.tests v.role

omit [DecidableEq Thread] [DecidableEq Entry] [Finite Thread] in
theorem KQueue.not_admits {q : KQueue Thread Entry} (refused : ¬ q.admits) :
    q.maximumCount ≠ 0 ∧ q.maximumCount ≤ q.currentCount := by
  obtain ⟨bounded, full⟩ := not_or.mp refused
  exact ⟨bounded, Nat.le_of_not_lt full⟩

omit [Finite Thread] in
theorem Saturated.step (served : Served v) (saturated : Saturated v)
    (stepped : ServiceStep v departure v') (stays : departure ≠ .stays → ¬ Backlog v) : Saturated v' := by
  cases stepped with
  | enter t away => exact saturated
  | leave | rejoin => exact fun backlog => absurd backlog (stays nofun)
  | hand t rest _ entry list admits =>
    rintro ⟨some, _⟩
    obtain ⟨bounded, full⟩ := saturated ⟨some, by rw [list]; nofun⟩
    exact ⟨bounded, Nat.le_succ_of_le full⟩
  | append _ entry refused =>
    rintro ⟨_, waits⟩
    exact KQueue.not_admits (refused.resolve_left waits)
  | take t _ entry rest testing list admits =>
    rintro ⟨_, waits⟩
    obtain ⟨bounded, full⟩ := saturated ⟨by rw [list]; nofun, waits⟩
    exact ⟨bounded, Nat.le_succ_of_le full⟩
  | giveUp t testing refused => exact saturated
  | wait t testing refused =>
    rintro ⟨some, _⟩
    exact KQueue.not_admits (refused.resolve_left some)
  | expire t waiting =>
    rintro ⟨some, _⟩
    exact saturated ⟨some, ne_nil_of_mem (served.waiting.mpr waiting)⟩
  | resume t _ entry handed => exact saturated

omit [DecidableEq Entry] in
theorem Heeded.move (heeded : Heeded v) (before : v.role t = p)
    (role : v'.role = Function.update v.role t r)
    (maximum : v'.queue.maximumCount = v.queue.maximumCount) (backlog : Backlog v' → Backlog v)
    (enough : v.queue.currentCount + p.tests.toNat ≤ v'.queue.currentCount + r.tests.toNat) :
    Heeded v' := by
  subst before
  intro later
  obtain ⟨bounded, full⟩ := heeded (backlog later)
  have tests := census_update QueueRole.tests v.role t r
  rw [← role] at tests
  rw [maximum]
  exact ⟨bounded, by omega⟩

omit [Finite Thread] [DecidableEq Thread] [DecidableEq Entry] in
theorem Heeded.of_not_admits {q : KQueue Thread Entry} (refused : ¬ q.admits)
    (maximum : v'.queue.maximumCount = q.maximumCount) (count : v'.queue.currentCount = q.currentCount) :
    Heeded v' := by
  intro _
  obtain ⟨bounded, full⟩ := KQueue.not_admits refused
  rw [maximum, count]
  exact ⟨bounded, Nat.le_add_right_of_le full⟩

theorem Heeded.step (served : Served v) (heeded : Heeded v)
    (stepped : ServiceStep v departure v')
    (stays : departure = .leaves → Backlog v →
      v.queue.maximumCount < v.queue.currentCount + census QueueRole.tests v.role) : Heeded v' := by
  cases stepped with
  | enter t away =>
    apply heeded.move away rfl
    case maximum => rfl
    case backlog => exact id
    case enough => exact Nat.le_succ _
  | leave t running =>
    intro backlog
    have tests := census_update QueueRole.tests v.role t .away
    have count := served.release_count running
    have room := stays rfl backlog
    rw [running] at tests
    simp only [QueueRole.tests, Bool.toNat_false, Nat.add_zero] at tests
    constructor
    · exact (heeded backlog).1
    · show v.queue.maximumCount ≤
        v.release.currentCount + census QueueRole.tests (Function.update v.role t .away)
      rw [tests]
      omega
  | rejoin t running =>
    have count := served.release_count running
    apply heeded.move running rfl
    case maximum => rfl
    case backlog => exact id
    case enough => exact count.ge
  | hand t rest _ entry list admits =>
    have inside : t ∈ v.queue.waitListHead := list ▸ mem_cons_self
    apply heeded.move (served.waiting.mp inside) rfl
    case maximum => rfl
    case backlog => exact fun backlog => ⟨backlog.1, ne_nil_of_mem inside⟩
    case enough => exact Nat.le_succ _
  | append _ entry refused =>
    rintro ⟨some, waits⟩
    exact Heeded.of_not_admits (refused.resolve_left waits) rfl rfl ⟨some, waits⟩
  | take t _ entry rest testing list admits =>
    apply heeded.move testing rfl
    case maximum => rfl
    case backlog => exact fun backlog => ⟨by rw [list]; nofun, backlog.2⟩
    case enough => exact Nat.le_refl _
  | giveUp t testing refused | wait t testing refused =>
    rintro ⟨some, waits⟩
    exact Heeded.of_not_admits (refused.resolve_left some) rfl rfl ⟨some, waits⟩
  | expire t waiting =>
    apply heeded.move waiting rfl
    case maximum => rfl
    case backlog => exact fun backlog => ⟨backlog.1, ne_nil_of_mem (served.waiting.mpr waiting)⟩
    case enough => exact Nat.le_refl _
  | resume t _ entry handed =>
    apply heeded.move handed rfl
    case maximum => rfl
    case backlog => exact id
    case enough => exact Nat.le_refl _

end Steps

end VeaOS.Ks
