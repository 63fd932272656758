import Mathlib.Data.List.Perm.Basic
import VeaOS.Foundation.PhaseRing

/-! A pair of an NVMe submission and completion queue, with the controller behind it: it
takes the commands in order, carries them out in any order, and posts a completion where
the host left room. -/
namespace VeaOS.Nvme
open Foundation Function List

structure NvmeCommand where
  opcode : UInt8
  commandId : UInt16
  namespaceId : UInt32
  prp1 : UInt64
  prp2 : UInt64
  cdw10 : UInt32
  cdw11 : UInt32
  cdw12 : UInt32
  deriving DecidableEq

/-- `serial` counts the submissions: it names the one that this entry completes. -/
structure NvmeCompletion where
  commandId : UInt16
  status : BitVec 15
  phase : Bool
  serial : Nat
  deriving DecidableEq

/-- The two rings, what the host and the controller know of them, and the history of the
commands submitted, of how many were fetched, and of the completions posted. A slot of the
submission ring carries the number of its submission. -/
structure NvmeQueue where
  submission : Nat → Option (Nat × NvmeCommand)
  submissionTail : Nat
  submissionDoorbell : Nat
  completion : Nat → NvmeCompletion
  completionHead : Nat
  phase : Bool
  completionDoorbell : Nat
  submissionHead : Nat
  executing : List (Nat × NvmeCommand)
  completionTail : Nat
  completionPhase : Bool
  submitted : List NvmeCommand
  fetched : Nat
  posted : List (Nat × BitVec 15)

/-- The memory of the rings is zeroed, and the phase expected first is 1. -/
def nvmeInitializeQueueState : NvmeQueue where
  submission := fun _ => none
  submissionTail := 0
  submissionDoorbell := 0
  completion := fun _ => ⟨0, 0, false, 0⟩
  completionHead := 0
  phase := true
  completionDoorbell := 0
  submissionHead := 0
  executing := []
  completionTail := 0
  completionPhase := true
  submitted := []
  fetched := 0
  posted := []

namespace NvmeQueue
variable (depth : Nat) (q : NvmeQueue)

/-- The command is copied to the tail and the doorbell is rung. -/
def submit (command : NvmeCommand) : NvmeQueue :=
  let tail := (q.submissionTail + 1) % depth
  { q with
    submission := Function.update q.submission q.submissionTail (some (q.submitted.length, command))
    submissionTail := tail
    submissionDoorbell := tail
    submitted := q.submitted ++ [command] }

def fetch : Option NvmeQueue :=
  if q.submissionHead = q.submissionDoorbell then none
  else (q.submission q.submissionHead).map fun entry => { q with
    submissionHead := (q.submissionHead + 1) % depth
    executing := q.executing ++ [entry]
    fetched := q.fetched + 1 }

/-- A command that is carried out ends with a status; its completion needs a free slot. -/
def post (i : Nat) (status : BitVec 15) : Option NvmeQueue :=
  let tail := (q.completionTail + 1) % depth
  if tail = q.completionDoorbell then none
  else (q.executing[i]?).map fun entry => { q with
    completion := Function.update q.completion q.completionTail
      ⟨entry.2.commandId, status, q.completionPhase, entry.1⟩
    executing := q.executing.eraseIdx i
    completionTail := tail
    completionPhase := if tail = 0 then !q.completionPhase else q.completionPhase
    posted := q.posted ++ [(entry.1, status)] }

/-- The `n`-th entry posted is `e`, with the identifier of the command that it completes. -/
def Records (submitted : List NvmeCommand) (posted : List (Nat × BitVec 15)) (n : Nat) (e : NvmeCompletion) : Prop :=
  posted[n]? = some (e.serial, e.status) ∧ ∃ c, submitted[e.serial]? = some c ∧ e.commandId = c.commandId

/-- The rings hold what they should when the host has told the controller of `rung`
completions that it took. -/
structure Wired (rung : Nat) : Prop where
  tail : q.submissionTail = q.submitted.length % depth
  doorbell : q.submissionDoorbell = q.submitted.length % depth
  submissionHead : q.submissionHead = q.fetched % depth
  behind : q.fetched ≤ q.submitted.length
  room : q.submitted.length < q.fetched + depth
  pending : Window depth q.submission (fun n e => ∃ c, q.submitted[n]? = some c ∧ e = some (n, c))
    q.fetched q.submitted.length
  serials : (q.posted.map Prod.fst ++ q.executing.map Prod.fst).Perm (List.range q.fetched)
  commands : ∀ x ∈ q.executing, q.submitted[x.1]? = some x.2
  completionTail : q.completionTail = q.posted.length % depth
  completionPhase : q.completionPhase = lapBit depth q.posted.length
  marks : PhaseMarks depth (fun k => (q.completion k).phase) q.posted.length
  entries : Window depth q.completion (Records q.submitted q.posted) (q.posted.length - depth) q.posted.length
  completionDoorbell : q.completionDoorbell = rung % depth
  told : rung ≤ q.posted.length
  space : q.posted.length < rung + depth

variable {depth q} {r : NvmeQueue} {rung n : Nat}

theorem wired_initial (positive : 0 < depth) : nvmeInitializeQueueState.Wired depth 0 where
  tail := (Nat.zero_mod depth).symm
  doorbell := (Nat.zero_mod depth).symm
  submissionHead := (Nat.zero_mod depth).symm
  behind := Nat.le_refl 0
  room := by simpa [nvmeInitializeQueueState] using positive
  pending := fun n _ before => absurd before (Nat.not_lt_zero n)
  serials := Perm.nil
  commands := fun x found => by cases found
  completionTail := (Nat.zero_mod depth).symm
  completionPhase := by simp [nvmeInitializeQueueState, lapBit]
  marks := PhaseMarks.blank fun _ _ => rfl
  entries := fun n _ before => absurd before (Nat.not_lt_zero n)
  completionDoorbell := (Nat.zero_mod depth).symm
  told := Nat.le_refl 0
  space := by simpa [nvmeInitializeQueueState] using positive

namespace Wired

variable (wired : q.Wired depth rung)
include wired

theorem positive : 0 < depth := by
  have := wired.room
  have := wired.behind
  omega

theorem host (later : rung ≤ rung') (posted : rung' ≤ q.posted.length) :
    ({ q with completionHead := h, phase := b, completionDoorbell := rung' % depth } : NvmeQueue).Wired depth rung' :=
  { wired with
    completionDoorbell := rfl
    told := posted
    space := by
      have := wired.space
      simp only
      omega }

theorem quiet : ({ q with completionHead := h, phase := b } : NvmeQueue).Wired depth rung :=
  { wired with }

theorem submit (room : q.submitted.length + 1 < q.fetched + depth) :
    (q.submit depth command).Wired depth rung := by
  have grown : ∀ {n c}, q.submitted[n]? = some c → (q.submitted ++ [command])[n]? = some c := fun found => by
    rw [getElem?_append_left (getElem?_eq_some_iff.mp found).1]
    exact found
  exact { wired with
    tail := by simp only [NvmeQueue.submit, wired.tail, slot_succ, length_append, length_singleton]
    doorbell := by simp only [NvmeQueue.submit, wired.tail, slot_succ, length_append, length_singleton]
    behind := by
      have := wired.behind
      simp only [NvmeQueue.submit, length_append, length_singleton]
      omega
    room := by simpa [NvmeQueue.submit] using room
    pending := by
      have pushed : Window depth _ (fun n e => ∃ c, (q.submitted ++ [command])[n]? = some c ∧ e = some (n, c)) _ _ :=
        wired.pending.push wired.room (e := some (q.submitted.length, command)) (fun n e _ ⟨c, found, same⟩ => ⟨c, grown found, same⟩) ⟨command, by simp, rfl⟩
      rw [← wired.tail] at pushed
      simpa only [NvmeQueue.submit, length_append, length_singleton] using pushed
    commands := fun x found => grown (wired.commands x found)
    entries := wired.entries.mono fun n e _ ⟨found, c, command, same⟩ => ⟨found, c, grown command, same⟩ }

theorem fetch (fetched : q.fetch depth = some r) : r.Wired depth rung := by
  simp only [NvmeQueue.fetch, Option.ite_none_left_eq_some, Option.map_eq_some_iff] at fetched
  obtain ⟨more, entry, found, rfl⟩ := fetched
  have behind := wired.behind
  have before : q.fetched < q.submitted.length := by
    refine Nat.lt_of_le_of_ne behind fun same => more ?_
    rw [wired.submissionHead, wired.doorbell, same]
  obtain ⟨c, command, here⟩ := wired.pending q.fetched (Nat.le_refl _) before
  rw [← wired.submissionHead, found] at here
  cases here
  exact { wired with
    submissionHead := by
      simp only
      rw [wired.submissionHead, slot_succ]
    behind := before
    room := by
      have := wired.room
      simp only
      omega
    pending := wired.pending.drop (Nat.le_succ _)
    serials := by
      simp only [map_append, map_cons, map_nil, range_succ, ← append_assoc]
      exact wired.serials.append_right _
    commands := fun x member => by
      rcases mem_append.mp member with old | last
      · exact wired.commands x old
      · rw [mem_singleton.mp last]
        exact command }

theorem post (posted : q.post depth i status = some r) : r.Wired depth rung := by
  simp only [NvmeQueue.post, Option.ite_none_left_eq_some, Option.map_eq_some_iff] at posted
  obtain ⟨free, entry, found, rfl⟩ := posted
  have space := wired.space
  have told := wired.told
  have room : q.posted.length + 1 < rung + depth := by
    refine Nat.lt_of_le_of_ne wired.space fun same => free ?_
    rw [wired.completionTail, wired.completionDoorbell, slot_succ]
    exact (congrArg (· % depth) same).trans (Nat.add_mod_right rung depth)
  exact { wired with
    serials := by
      refine List.Perm.trans ?_ wired.serials
      obtain ⟨small, at_i⟩ := List.getElem?_eq_some_iff.mp found
      have moved : (q.executing[i] :: q.executing.eraseIdx i).Perm q.executing := List.getElem_cons_eraseIdx_perm small
      rw [at_i] at moved
      have moved := moved.map Prod.fst
      simp only [List.map_append, List.map_cons, List.map_nil, List.append_assoc, List.singleton_append]
      exact moved.append_left _
    commands := fun x member => wired.commands x (List.mem_of_mem_eraseIdx member)
    completionTail := by simp only [wired.completionTail, slot_succ, List.length_append, List.length_singleton]
    completionPhase := by
      simp only [wired.completionTail, wired.completionPhase, slot_succ, List.length_append, List.length_singleton]
      exact lapBit_succ.symm
    marks := by
      have pushed := wired.marks.push
      have same : (fun k => (Function.update q.completion q.completionTail
          ⟨entry.2.commandId, status, q.completionPhase, entry.1⟩ k).phase) =
          Function.update (fun k => (q.completion k).phase) (q.posted.length % depth) (lapBit depth q.posted.length) := by
        funext k
        rw [← wired.completionTail, ← wired.completionPhase]
        by_cases here : k = q.completionTail
        · rw [here, Function.update_self, Function.update_self]
        · rw [Function.update_of_ne here, Function.update_of_ne here]
      simp only [List.length_append, List.length_singleton, same]
      exact pushed
    entries := by
      have grown : ∀ {n x}, q.posted[n]? = some x → (q.posted ++ [(entry.1, status)])[n]? = some x := fun found => by
        rw [List.getElem?_append_left (List.getElem?_eq_some_iff.mp found).1]
        exact found
      have pushed : Window depth _ (Records q.submitted (q.posted ++ [(entry.1, status)])) _ _ :=
        (wired.entries.drop (show q.posted.length - depth ≤ q.posted.length + 1 - depth by omega)).push (by omega)
          (e := ⟨entry.2.commandId, status, q.completionPhase, entry.1⟩)
          (fun n e _ ⟨found, own⟩ => ⟨grown found, own⟩)
          ⟨by simp, entry.2, wired.commands entry (List.mem_of_getElem? found), rfl⟩
      rw [← wired.completionTail] at pushed
      simpa only [List.length_append, List.length_singleton] using pushed
    told := by
      simp only [List.length_append, List.length_singleton]
      omega
    space := by
      simp only [List.length_append, List.length_singleton]
      omega }

theorem current_iff (behind : n ≤ q.posted.length) (near : rung ≤ n) :
    (q.completion (n % depth)).phase = lapBit depth n ↔ n < q.posted.length :=
  wired.marks.expected_iff wired.positive behind (by have := wired.space; omega)

theorem entry (before : n < q.posted.length) (near : q.posted.length ≤ n + depth) :
    Records q.submitted q.posted n (q.completion (n % depth)) :=
  wired.entries n (by omega) before

end Wired
end NvmeQueue
end VeaOS.Nvme
