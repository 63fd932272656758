import VeaOS.Foundation.Places
import VeaOS.Foundation.Runs
import VeaOS.Ob.IoTimer

/-! When the timers stay in order: the list, the counter and the ticks, over every
interleaving of the threads. -/
namespace VeaOS.Ob
open Foundation Transition RingLinks Function IoTimerState List Option
variable {Thread Device Routine : Type*}

namespace IoTimerState

/-- The list is well formed and holds each timer once, the counter is right, every tick
called the routine of each timer that was enabled throughout it once, and no thread went
for the lock it holds or took an entry off the list that is not on it. -/
structure Sound (σ : IoTimerState Thread Device Routine) : Prop where
  ring : σ.links.Ring .head (σ.queue.map .timer)
  count : σ.obioTimerCount.toNat = σ.enabledOnQueue.length
  ticks : ∀ tick ∈ σ.ticks, ∀ t ∈ tick.1, (tick.2.map Prod.fst).count t = 1
  runs : ∀ thread, (σ.op thread).stopped = false

/-- What a section must find: a timer enters the list once and not enabled, one that
is started is on the list and not enabled, with room in the counter, one that is
enabled and stopped is on the list, and so is one that is removed. -/
def Fits (σ : IoTimerState Thread Device Routine) : TimerSection → Prop
  | .insert t => t ∉ σ.queue ∧ σ.timerEnabled t = false
  | .start t => t ∈ σ.queue ∧ σ.timerEnabled t = false ∧ σ.enabledOnQueue.length + 1 < 4294967296
  | .stop t => σ.timerEnabled t = true → t ∈ σ.queue
  | .remove t => t ∈ σ.queue
  | .dispatch => True

instance (σ : IoTimerState Thread Device Routine) (wanted : TimerSection) : Decidable (σ.Fits wanted) :=
  match wanted with
  | .insert _ => inferInstanceAs (Decidable (_ ∧ _))
  | .start _ => inferInstanceAs (Decidable (_ ∧ _))
  | .stop _ => inferInstanceAs (Decidable (_ → _))
  | .remove _ => inferInstanceAs (Decidable (_ ∈ _))
  | .dispatch => isTrue trivial

/-- The lock is not wanted by the thread that holds it, and its section finds what it must. -/
def Meets (σ : IoTimerState Thread Device Routine) : TimerAction Thread Device Routine → Prop
  | .acquire thread =>
    match σ.op thread with
    | .acquiring wanted => σ.holder ≠ some thread ∧ (σ.holder = none → σ.Fits wanted)
    | _ => True
  | _ => True

def entryOf : List Nat → TimerNode
  | [] => .head
  | t :: _ => .timer t

/-- How far a dispatch has come along the list. -/
def Walking (σ : IoTimerState Thread Device Routine) (d : Dispatch Routine) : Prop :=
  ∃ before rest, σ.queue = before ++ rest ∧ d.timerEntry = entryOf rest ∧
    d.i.toNat = (rest.filter fun t => σ.timerEnabled t).length ∧
    if d.inRoutine then
      ∃ t later, rest = t :: later ∧ σ.timerEnabled t = true ∧
        d.called.map Prod.fst = (before.filter fun t => σ.timerEnabled t) ++ [t]
    else d.called.map Prod.fst = before.filter fun t => σ.timerEnabled t

structure Ordered (σ : IoTimerState Thread Device Routine) : Prop where
  sound : σ.Sound
  off : ∀ t, t ∉ σ.queue → σ.links.flink (.timer t) = .null
  held : ∀ thread, σ.dispatch thread ≠ none → σ.holder = some thread
  walking : ∀ thread d, σ.dispatch thread = some d → σ.Walking d
  watched : ∀ thread, ∀ t ∈ σ.watched thread, t ∈ σ.enabledOnQueue

section Fields
variable {σ τ : IoTimerState Thread Device Routine} {thread : Thread} {op : TimerOp Device Routine}

theorem mem_enabledOnQueue {t : Nat} : t ∈ σ.enabledOnQueue ↔ t ∈ σ.queue ∧ σ.timerEnabled t = true := by
  simp [enabledOnQueue]

theorem Ordered.congr (ordered : σ.Ordered) (links : τ.links = σ.links) (queue : τ.queue = σ.queue)
    (enabled : τ.timerEnabled = σ.timerEnabled) (count : τ.obioTimerCount = σ.obioTimerCount)
    (holder : τ.holder = σ.holder) (dispatch : τ.dispatch = σ.dispatch) (ticks : τ.ticks = σ.ticks)
    (watched : τ.watched = σ.watched) (op : ∀ th, τ.op th = σ.op th ∨ (τ.op th).stopped = false) : τ.Ordered := by
  have list : τ.enabledOnQueue = σ.enabledOnQueue := by rw [enabledOnQueue, queue, enabled, enabledOnQueue]
  refine ⟨⟨by rw [links, queue]; exact ordered.sound.ring, by rw [count, list]; exact ordered.sound.count,
    by rw [ticks]; exact ordered.sound.ticks, fun th => ?_⟩, by rw [queue, links]; exact ordered.off,
    by rw [dispatch, holder]; exact ordered.held, fun th d found => ?_, by rw [watched, list]; exact ordered.watched⟩
  · rcases op th with same | goesOn
    · rw [same]
      exact ordered.sound.runs th
    · exact goesOn
  · rw [dispatch] at found
    have walking := ordered.walking th d found
    rw [Walking, queue, enabled]
    exact walking

variable [DecidableEq Thread]

theorem setOp_op {th : Thread} (live : op.stopped = false) :
    (σ.setOp thread op).op th = σ.op th ∨ ((σ.setOp thread op).op th).stopped = false := by
  by_cases same : th = thread
  · subst same
    rw [setOp]
    simp only [update_self]
    exact Or.inr live
  · exact Or.inl (update_of_ne same _ _)

theorem Ordered.setOp (ordered : σ.Ordered) (live : op.stopped = false) : (σ.setOp thread op).Ordered :=
  ordered.congr rfl rfl rfl rfl rfl rfl rfl rfl fun _ => setOp_op live

end Fields

section Sections
variable {σ τ : IoTimerState Thread Device Routine} {t : Nat}

theorem Sound.distinct (sound : σ.Sound) : σ.queue.Nodup :=
  Nodup.of_map _ (nodup_cons.mp sound.ring.distinct).2

theorem Ordered.no_dispatch (ordered : σ.Ordered) (unheld : σ.holder = none) (thread : Thread) :
    σ.dispatch thread = none := by
  by_contra running
  have holds := ordered.held thread running
  rw [unheld] at holds
  cases holds

theorem Ordered.of_section (ordered : σ.Ordered) (unheld : σ.holder = none)
    (ring : τ.links.Ring .head (τ.queue.map .timer)) (count : τ.obioTimerCount.toNat = τ.enabledOnQueue.length)
    (off : ∀ t, t ∉ τ.queue → τ.links.flink (.timer t) = .null)
    (watched : ∀ thread, ∀ t ∈ τ.watched thread, t ∈ τ.enabledOnQueue)
    (ticks : τ.ticks = σ.ticks) (op : τ.op = σ.op) (dispatch : τ.dispatch = σ.dispatch) : τ.Ordered := by
  have none_running : ∀ thread, τ.dispatch thread = none := fun thread => by
    rw [dispatch]
    exact ordered.no_dispatch unheld thread
  refine ⟨⟨ring, count, by rw [ticks]; exact ordered.sound.ticks, by rw [op]; exact ordered.sound.runs⟩, off,
    fun thread running => absurd (none_running thread) running, fun thread d found => ?_, watched⟩
  rw [none_running] at found
  cases found

theorem Ordered.insert (ordered : σ.Ordered) (unheld : σ.holder = none) (fits : σ.Fits (.insert t)) :
    (σ.insertTailList t).Ordered := by
  obtain ⟨absent, disabled⟩ := fits
  have same : (σ.insertTailList t).enabledOnQueue = σ.enabledOnQueue := by
    simp [enabledOnQueue, insertTailList, filter_append, disabled]
  have outside : TimerNode.timer t ∉ TimerNode.head :: σ.queue.map .timer := by simpa using absent
  refine ordered.of_section unheld ?_ (by rw [same]; exact ordered.sound.count) (fun u missing => ?_)
    (by rw [same]; exact ordered.watched) rfl rfl rfl
  · simpa [insertTailList] using ordered.sound.ring.insertTail outside
  · have away : u ∉ σ.queue ∧ u ≠ t := by simpa [insertTailList] using missing
    rw [insertTailList, ordered.sound.ring.insertTail_flink (by simpa using away.1) (by simpa using away.2)]
    exact ordered.off u away.1

theorem Sound.insert_fits (sound : σ.Sound) (kept : (σ.insertTailList t).Sound) : σ.Fits (.insert t) := by
  have distinct := kept.distinct
  have count := kept.count
  have absent : t ∉ σ.queue := by
    simp only [insertTailList, nodup_append, mem_singleton] at distinct
    exact fun member => distinct.2.2 t member t rfl rfl
  refine ⟨absent, ?_⟩
  cases enabled : σ.timerEnabled t with
  | false => rfl
  | true =>
    simp only [enabledOnQueue, insertTailList, filter_append, filter_cons, enabled] at count
    have before := sound.count
    rw [enabledOnQueue] at before
    simp [before] at count

theorem Ordered.start (ordered : σ.Ordered) (unheld : σ.holder = none) (fits : σ.Fits (.start t))
    (ran : σ.runSection (.start t) = some τ) : τ.Ordered := by
  obtain ⟨member, disabled, room⟩ := fits
  cases ran
  have longer := length_filter_update σ.timerEnabled true ordered.sound.distinct member
  have count := ordered.sound.count
  simp only [disabled, ↓reduceIte, Bool.false_eq_true] at longer
  rw [enabledOnQueue] at count room
  refine ordered.of_section unheld ordered.sound.ring ?_ ordered.off (fun thread u watched => ?_) rfl rfl rfl
  · simp only [enabledOnQueue, UInt32.toNat_add, UInt32.toNat_one, count]
    omega
  · obtain ⟨listed, enabled⟩ := mem_enabledOnQueue.mp (ordered.watched thread u watched)
    refine mem_enabledOnQueue.mpr ⟨listed, ?_⟩
    by_cases same : u = t
    · rw [same]
      exact update_self ..
    · exact (update_of_ne same _ _).trans enabled

theorem Sound.start_fits (sound : σ.Sound) (ran : σ.runSection (.start t) = some τ) (kept : τ.Sound) :
    σ.Fits (.start t) := by
  cases ran
  have before := sound.count
  have count := kept.count
  have small := σ.obioTimerCount.toNat_lt
  simp only [enabledOnQueue, UInt32.toNat_add, UInt32.toNat_one] at count before
  by_cases member : t ∈ σ.queue
  · have longer := length_filter_update σ.timerEnabled true sound.distinct member
    simp only [↓reduceIte] at longer
    cases enabled : σ.timerEnabled t with
    | true =>
      simp only [enabled, ↓reduceIte] at longer
      omega
    | false =>
      simp only [enabled, ↓reduceIte, Bool.false_eq_true] at longer
      refine ⟨member, enabled, ?_⟩
      rw [enabledOnQueue]
      omega
  · rw [filter_update_absent member] at count
    omega

theorem Ordered.stop (ordered : σ.Ordered) (unheld : σ.holder = none) (fits : σ.Fits (.stop t))
    (ran : σ.runSection (.stop t) = some τ) : τ.Ordered := by
  cases enabled : σ.timerEnabled t with
  | false =>
    simp only [runSection, enabled, Bool.false_eq_true, ↓reduceIte, some.injEq] at ran
    rwa [← ran]
  | true =>
    simp only [runSection, enabled, ↓reduceIte, some.injEq] at ran
    subst ran
    have shorter := length_filter_update σ.timerEnabled false ordered.sound.distinct (fits enabled)
    have count := ordered.sound.count
    have small := σ.obioTimerCount.toNat_lt
    simp only [enabled, ↓reduceIte, Bool.false_eq_true] at shorter
    rw [enabledOnQueue] at count
    refine ordered.of_section unheld ordered.sound.ring ?_ ordered.off (fun thread u watched => ?_) rfl rfl rfl
    · simp only [enabledOnQueue, unwatch, UInt32.toNat_sub, UInt32.toNat_one]
      omega
    · simp only [unwatch, mem_filter, decide_eq_true_eq] at watched
      obtain ⟨listed, enabled⟩ := mem_enabledOnQueue.mp (ordered.watched thread u watched.1)
      exact mem_enabledOnQueue.mpr ⟨listed, (update_of_ne watched.2 _ _).trans enabled⟩

theorem Sound.stop_fits (sound : σ.Sound) (ran : σ.runSection (.stop t) = some τ) (kept : τ.Sound) :
    σ.Fits (.stop t) := by
  intro enabled
  by_contra absent
  simp only [runSection, enabled, ↓reduceIte, some.injEq] at ran
  subst ran
  have before := sound.count
  have count := kept.count
  have small := σ.obioTimerCount.toNat_lt
  simp only [enabledOnQueue, unwatch, UInt32.toNat_sub, UInt32.toNat_one, filter_update_absent absent] at count before
  omega

theorem Sound.flink_head (sound : σ.Sound) : σ.links.flink .head = entryOf σ.queue := by
  rw [sound.ring.flink_head]
  cases σ.queue <;> rfl

theorem Sound.flink_timer (sound : σ.Sound) (split : σ.queue = before ++ t :: later) :
    σ.links.flink (.timer t) = entryOf later := by
  have ring := sound.ring
  rw [split, map_append, map_cons] at ring
  rw [ring.flink_eq]
  cases later <;> rfl

/-- The links of a timer are null just where it is not on the list. -/
theorem Ordered.unlinked_iff (ordered : σ.Ordered) :
    (σ.links.flink (.timer t) = .null ∨ σ.links.blink (.timer t) = .null) ↔ t ∉ σ.queue := by
  refine ⟨fun unlinked member => ?_, fun absent => .inl (ordered.off t absent)⟩
  obtain ⟨xs, ys, split⟩ := append_of_mem member
  have ring := ordered.sound.ring
  rw [split, map_append, map_cons] at ring
  rcases unlinked with flink | blink
  · rw [ordered.sound.flink_timer split] at flink
    cases ys <;> cases flink
  · have linked := ring.rotate.linked.blink_mem
    simp [blink] at linked

theorem Ordered.remove (ordered : σ.Ordered) (unheld : σ.holder = none) (member : t ∈ σ.queue)
    (ran : σ.runSection (.remove t) = some τ) : τ.Ordered := by
  obtain ⟨left, removed, rfl⟩ := map_eq_some_iff.mp ran
  simp only [removeEntryList, ite_none_left_eq_some, some.injEq] at removed
  obtain ⟨linked, rfl⟩ := removed
  obtain ⟨xs, ys, split⟩ := append_of_mem member
  have distinct := ordered.sound.distinct
  rw [split] at distinct
  have erased : σ.queue.erase t = xs ++ ys := by
    rw [split, erase_append_right _ (by grind), erase_cons_head]
  have ring := ordered.sound.ring
  rw [split, map_append, map_cons] at ring
  refine ordered.of_section unheld ?_ ?_ (fun u missing => ?_) (fun thread u watched => ?_) rfl rfl rfl
  · have shorter := ring.unlink
    rw [← map_append, ← erased] at shorter
    have away : ∀ x ∈ TimerNode.head :: (σ.queue.erase t).map TimerNode.timer, x ≠ .timer t := by
      rw [erased]
      grind
    exact shorter.congr (fun x found => update_of_ne (away x found) _ _)
      fun x found => update_of_ne (away x found) _ _
  · have count := ordered.sound.count
    have small := σ.obioTimerCount.toNat_lt
    rw [enabledOnQueue, split, length_filter_split] at count
    change (if σ.timerEnabled t then σ.obioTimerCount - 1 else σ.obioTimerCount).toNat =
      ((σ.queue.erase t).filter fun u => σ.timerEnabled u).length
    rw [erased]
    cases enabled : σ.timerEnabled t with
    | true =>
      simp only [enabled, ↓reduceIte, UInt32.toNat_sub, UInt32.toNat_one] at count ⊢
      omega
    | false => simpa only [enabled, ↓reduceIte, Bool.false_eq_true, Nat.add_zero] using count
  · change u ∉ σ.queue.erase t at missing
    by_cases same : u = t
    · rw [same]
      exact update_self ..
    · have away : u ∉ σ.queue := fun listed => missing ((mem_erase_of_ne same).mpr listed)
      have other : TimerNode.timer u ≠ .timer t := by simpa using same
      refine (update_of_ne other _ _).trans ((unlinkEntry_eq other).1.trans ?_)
      rw [unwatch, (ordered.sound.ring.remove_outside (by simpa using member) (by simpa using away)).1]
      exact ordered.off u away
  · simp only [unwatch, mem_filter, decide_eq_true_eq] at watched
    obtain ⟨listed, enabled⟩ := mem_enabledOnQueue.mp (ordered.watched thread u watched.1)
    exact mem_enabledOnQueue.mpr ⟨(mem_erase_of_ne watched.2).mpr listed, enabled⟩

theorem Ordered.runSection (ordered : σ.Ordered) (unheld : σ.holder = none) (fits : σ.Fits wanted)
    (ran : σ.runSection wanted = some τ) : τ.Ordered := by
  cases wanted with
  | insert t =>
    cases ran
    exact ordered.insert unheld fits
  | start t => exact ordered.start unheld fits ran
  | stop t => exact ordered.stop unheld fits ran
  | remove t => exact ordered.remove unheld fits ran
  | dispatch =>
    cases ran
    exact ordered

theorem Ordered.section_fits (ordered : σ.Ordered) (ran : σ.runSection wanted = some τ) (kept : τ.Sound) :
    σ.Fits wanted := by
  cases wanted with
  | insert t =>
    cases ran
    exact ordered.sound.insert_fits kept
  | start t => exact ordered.sound.start_fits ran kept
  | stop t => exact ordered.sound.stop_fits ran kept
  | remove t =>
    by_contra absent
    rw [IoTimerState.runSection, removeEntryList, unwatch, if_pos (ordered.unlinked_iff.mpr absent)] at ran
    cases ran
  | dispatch => trivial

/-- A section that finds what it must ends. -/
theorem Ordered.runSection_returns (ordered : σ.Ordered) (fits : σ.Fits wanted) :
    ∃ τ, σ.runSection wanted = some τ := by
  cases wanted with
  | insert t => exact ⟨_, rfl⟩
  | start t => exact ⟨_, rfl⟩
  | stop t =>
    rw [IoTimerState.runSection]
    split_ifs <;> exact ⟨_, rfl⟩
  | remove t =>
    rw [IoTimerState.runSection, removeEntryList, unwatch, if_neg fun unlinked => ordered.unlinked_iff.mp unlinked fits]
    exact ⟨_, rfl⟩
  | dispatch => exact ⟨_, rfl⟩

theorem obioInitTimers_ordered : (obioInitTimers Thread Device Routine).Ordered := by
  refine ⟨⟨⟨nodup_singleton _, rfl, rfl⟩, rfl, fun tick found => ?_, fun _ => ?_⟩, fun _ _ => rfl,
    fun _ running => absurd rfl running, fun _ _ found => ?_, fun _ _ found => ?_⟩
  · cases found
  · rfl
  · cases found
  · cases found

end Sections
section Ticks
variable {σ τ : IoTimerState Thread Device Routine} {thread : Thread} {d : Dispatch Routine}

theorem Ordered.release (ordered : σ.Ordered) (holds : σ.holder = some thread) (ended : σ.dispatch thread = none) :
    ({ σ with holder := none } : IoTimerState Thread Device Routine).Ordered := by
  refine ⟨⟨ordered.sound.ring, ordered.sound.count, ordered.sound.ticks, ordered.sound.runs⟩, ordered.off, fun th busy => ?_, ordered.walking, ordered.watched⟩
  have same := some.inj (holds.symm.trans (ordered.held th busy))
  exact absurd (same ▸ ended) busy

theorem enabled_before (split : σ.queue = before ++ rest)
    (none_left : (rest.filter fun t => σ.timerEnabled t).length = 0) :
    (before.filter fun t => σ.timerEnabled t) = σ.enabledOnQueue := by
  rw [enabledOnQueue, split, filter_append, eq_nil_of_length_eq_zero none_left, append_nil]

variable [DecidableEq Thread]

theorem Ordered.finishTick (ordered : σ.Ordered) (called : calls.map Prod.fst = σ.enabledOnQueue) :
    (σ.finishTick thread calls).Ordered := by
  refine ⟨⟨ordered.sound.ring, ordered.sound.count, ?_, ordered.sound.runs⟩, ordered.off, ordered.held,
    ordered.walking, fun th t watched => ?_⟩
  · rintro tick (_ | ⟨_, earlier⟩) t member
    · rw [called]
      exact List.count_eq_one_of_mem (ordered.sound.distinct.filter _) (ordered.watched thread t member)
    · exact ordered.sound.ticks tick earlier t member
  · by_cases same : th = thread
    · subst same
      simp only [IoTimerState.finishTick, Function.update_self] at watched
      cases watched
    · simp only [IoTimerState.finishTick, Function.update_of_ne same] at watched
      exact ordered.watched th t watched

theorem setDispatch_self : (σ.setDispatch thread place).dispatch thread = place := update_self ..

theorem setDispatch_of_ne (other : th ≠ thread) : (σ.setDispatch thread place).dispatch th = σ.dispatch th :=
  update_of_ne other _ _

variable (ordered : σ.Ordered)
include ordered

theorem Ordered.setDispatch (running : σ.dispatch thread ≠ none)
    (walking : ∀ e, place = some e → σ.Walking e) : (σ.setDispatch thread place).Ordered := by
  refine ⟨⟨ordered.sound.ring, ordered.sound.count, ordered.sound.ticks, ordered.sound.runs⟩, ordered.off,
    fun th busy => ?_, fun th e found => ?_, ordered.watched⟩
  · by_cases same : th = thread
    · rw [same]
      exact ordered.held thread running
    · rw [setDispatch_of_ne same] at busy
      exact ordered.held th busy
  · by_cases same : th = thread
    · rw [same, setDispatch_self] at found
      exact walking e found
    · rw [setDispatch_of_ne same] at found
      exact ordered.walking th e found

theorem Ordered.endTick (found : σ.dispatch thread = some d)
    (called : d.called.map Prod.fst = σ.enabledOnQueue) :
    ({ (σ.setDispatch thread none).finishTick thread d.called with holder := none } :
      IoTimerState Thread Device Routine).Ordered := by
  have running : σ.dispatch thread ≠ none := by simp [found]
  have away : (σ.setDispatch thread none).Ordered := ordered.setDispatch running fun e none => by cases none
  have ended : ((σ.setDispatch thread none).finishTick thread d.called).Ordered := away.finishTick called
  exact ended.release (ordered.held thread running) (update_self ..)

theorem Ordered.advance (found : σ.dispatch thread = some d) (outside : d.inRoutine = false)
    (at_timer : d.timerEntry = .timer t) (enabled : σ.timerEnabled t = true) :
    (σ.setDispatch thread (some { d with called := d.called ++ [(t, σ.timerRoutine t)], inRoutine := true })).Ordered := by
  refine ordered.setDispatch (by simp [found]) fun e same => ?_
  cases same
  obtain ⟨before, rest, split, entry, left, called⟩ := ordered.walking thread d found
  rw [outside] at called
  rw [at_timer] at entry
  cases rest with
  | nil => cases entry
  | cons u later =>
    cases entry
    refine ⟨before, t :: later, split, at_timer, left, ?_⟩
    exact ⟨t, later, rfl, enabled, by simpa using called⟩

theorem Ordered.skip (found : σ.dispatch thread = some d) (outside : d.inRoutine = false)
    (at_timer : d.timerEntry = .timer t) (disabled : σ.timerEnabled t = false) :
    (σ.setDispatch thread (some { d with timerEntry := σ.links.flink d.timerEntry })).Ordered := by
  refine ordered.setDispatch (by simp [found]) fun e same => ?_
  cases same
  obtain ⟨before, rest, split, entry, left, called⟩ := ordered.walking thread d found
  rw [outside] at called
  rw [at_timer] at entry
  cases rest with
  | nil => cases entry
  | cons u later =>
    cases entry
    refine ⟨before ++ [t], later, by simpa using split, ?_, ?_, ?_⟩
    · simp only [at_timer, ordered.sound.flink_timer split]
    · simpa [filter_cons, disabled] using left
    · simpa [outside, filter_append, disabled] using called

theorem Ordered.routineReturns (found : σ.dispatch thread = some d)
    (inside : d.inRoutine = true) : (σ.setDispatch thread (some { d with
      timerEntry := σ.links.flink d.timerEntry, i := d.i - 1, inRoutine := false })).Ordered := by
  refine ordered.setDispatch (by simp [found]) fun e same => ?_
  cases same
  obtain ⟨before, rest, split, entry, left, called⟩ := ordered.walking thread d found
  rw [inside] at called
  obtain ⟨t, later, rfl, enabled, called⟩ := called
  have small := d.i.toNat_lt
  simp only [filter_cons, enabled, ↓reduceIte, length_cons] at left
  refine ⟨before ++ [t], later, by simpa using split, ?_, ?_, ?_⟩
  · simp only [entry, entryOf, ordered.sound.flink_timer split]
  · rw [UInt32.toNat_sub, UInt32.toNat_one]
    omega
  · simpa [filter_append, enabled] using called

theorem Ordered.prepare : (σ.prepare thread t routine).Ordered :=
  ordered.congr rfl rfl rfl rfl rfl rfl rfl rfl fun _ => setOp_op rfl

theorem Ordered.watch : ({ σ with
    watched := update σ.watched thread σ.enabledOnQueue } : IoTimerState Thread Device Routine).Ordered := by
  refine ⟨⟨ordered.sound.ring, ordered.sound.count, ordered.sound.ticks, ordered.sound.runs⟩, ordered.off,
    ordered.held, ordered.walking, fun th t watched => ?_⟩
  by_cases same : th = thread
  · subst same
    simp only [update_self] at watched
    exact watched
  · simp only [update_of_ne same] at watched
    exact ordered.watched th t watched

theorem Ordered.dispatch (unheld : σ.holder = none) : ({ (σ.setOp thread .idle).setDispatch thread
    (some ⟨σ.links.flink .head, σ.obioTimerCount, [], false⟩) with holder := some thread } :
      IoTimerState Thread Device Routine).Ordered := by
  have next : (σ.setOp thread .idle).Ordered := ordered.setOp rfl
  refine ⟨⟨next.sound.ring, next.sound.count, next.sound.ticks, next.sound.runs⟩, next.off,
    fun th busy => ?_, fun th d found => ?_, next.watched⟩
  · by_cases same : th = thread
    · exact congrArg _ same.symm
    · have other : ((σ.setOp thread .idle).setDispatch thread (some ⟨σ.links.flink .head, σ.obioTimerCount, [],
        false⟩)).dispatch th = _ := setDispatch_of_ne same
      exact absurd (other.trans (next.no_dispatch unheld th)) busy
  · by_cases same : th = thread
    · subst same
      cases (setDispatch_self ..).symm.trans found
      exact ⟨[], σ.queue, rfl, ordered.sound.flink_head, ordered.sound.count, rfl⟩
    · have other : ((σ.setOp thread .idle).setDispatch thread (some ⟨σ.links.flink .head, σ.obioTimerCount, [],
        false⟩)).dispatch th = _ := setDispatch_of_ne same
      cases (other.trans (next.no_dispatch unheld th)).symm.trans found

end Ticks
section Steps
variable [DecidableEq Thread] [DecidableEq Device] {σ τ : IoTimerState Thread Device Routine} {thread : Thread}
  {a : TimerAction Thread Device Routine}

theorem Ordered.tick (ordered : σ.Ordered) (stepped : σ.step (.tick thread) = some τ) : τ.Ordered := by
  simp only [step] at stepped
  split at stepped
  · split_ifs at stepped with nothing
    · cases stepped
      refine ordered.watch.finishTick ?_
      have count := ordered.sound.count
      rw [nothing] at count
      exact (eq_nil_of_length_eq_zero count.symm).symm
    · cases stepped
      exact ordered.watch.setOp rfl
  · cases stepped

theorem Ordered.advance_step (ordered : σ.Ordered) (stepped : σ.step (.advance thread) = some τ) : τ.Ordered := by
  simp only [step] at stepped
  split at stepped
  · rename_i d idle found
    obtain ⟨outside, stepped⟩ := ite_none_left_eq_some.mp stepped
    have notInside : d.inRoutine = false := by simpa using outside
    obtain ⟨before, rest, split_, entry, left, called⟩ := ordered.walking thread d found
    rw [notInside] at called
    cases rest with
    | nil =>
      rw [entryOf] at entry
      simp only [entry, some.injEq] at stepped
      rw [← stepped]
      exact ordered.endTick found (called.trans (enabled_before split_ rfl))
    | cons t later =>
      rw [entryOf] at entry
      simp only [entry] at stepped
      split_ifs at stepped with none_left enabled
      · cases stepped
        rw [none_left, UInt32.toNat_zero] at left
        exact ordered.endTick found (called.trans (enabled_before split_ left.symm))
      · cases stepped
        have inside := ordered.advance found notInside entry enabled
        rwa [entry] at inside
      · cases stepped
        have skipped := ordered.skip found notInside entry (by simpa using enabled)
        rwa [entry] at skipped
  · cases stepped

theorem Ordered.acquire (ordered : σ.Ordered) (meets : σ.Meets (.acquire thread))
    (stepped : σ.step (.acquire thread) = some τ) : τ.Ordered := by
  cases op : σ.op thread with
  | idle | allocating | alreadyOwned | nullLinks => simp [step, op] at stepped
  | acquiring wanted =>
    simp only [Meets, op] at meets
    simp only [step, op] at stepped
    cases held : σ.holder with
    | some holder =>
      simp only [held, ite_none_right_eq_some] at stepped
      exact absurd (held.trans (congrArg _ stepped.1)) meets.1
    | none =>
      simp only [held] at stepped
      have next : (σ.setOp thread .idle).Ordered := ordered.setOp rfl
      by_cases wants : wanted = .dispatch
      · simp only [wants, ↓reduceIte, some.injEq] at stepped
        subst stepped
        exact ordered.dispatch held
      · have fits : (σ.setOp thread .idle).Fits wanted := meets.2 held
        obtain ⟨τ', ran⟩ := next.runSection_returns fits
        rw [if_neg wants, ran] at stepped
        cases stepped
        exact next.runSection held fits ran

theorem Ordered.acquire_meets (ordered : σ.Ordered) (stepped : σ.step (.acquire thread) = some τ) (kept : τ.Sound) :
    σ.Meets (.acquire thread) := by
  cases op : σ.op thread with
  | idle | allocating | alreadyOwned | nullLinks => simp [step, op] at stepped
  | acquiring wanted =>
    simp only [step, op] at stepped
    simp only [Meets, op]
    cases held : σ.holder with
    | some holder =>
      simp only [held, Option.ite_none_right_eq_some, Option.some.injEq] at stepped
      obtain ⟨-, rfl⟩ := stepped
      exact absurd (kept.runs thread) (by simp [IoTimerState.setOp, TimerOp.stopped])
    | none =>
      refine ⟨(Option.some_ne_none thread).symm, fun _ => ?_⟩
      simp only [held] at stepped
      have next : (σ.setOp thread .idle).Ordered := ordered.setOp rfl
      by_cases wants : wanted = .dispatch
      · rw [wants]
        trivial
      · rw [if_neg wants] at stepped
        cases ran : (σ.setOp thread .idle).runSection wanted with
        | some τ' =>
          rw [ran] at stepped
          cases stepped
          exact next.section_fits ran kept
        | none =>
          rw [ran] at stepped
          cases stepped
          exact absurd (kept.runs thread) (by simp [IoTimerState.setOp, TimerOp.stopped])

theorem Ordered.step (ordered : σ.Ordered) (meets : σ.Meets a) (stepped : σ.step a = some τ) : τ.Ordered := by
  cases a with
  | initializeIoTimer thread device routine =>
    simp only [step, ite_none_right_eq_some] at stepped
    cases found : σ.timerOf device with
    | none =>
      simp only [found, some.injEq] at stepped
      rw [← stepped.2]
      exact ordered.setOp rfl
    | some t =>
      simp only [found, some.injEq] at stepped
      rw [← stepped.2]
      exact ordered.prepare
  | allocate thread succeeds =>
    cases op : σ.op thread with
    | idle | acquiring | alreadyOwned | nullLinks => simp [step, op] at stepped
    | allocating device routine =>
      simp only [step, op] at stepped
      cases succeeds with
      | false =>
        simp only [Bool.false_eq_true, ↓reduceIte, some.injEq] at stepped
        rw [← stepped]
        exact ordered.setOp rfl
      | true =>
        simp only [↓reduceIte, some.injEq] at stepped
        rw [← stepped]
        refine Ordered.prepare ?_
        exact ordered.congr rfl rfl rfl rfl rfl rfl rfl rfl fun _ => .inl rfl
  | startTimer thread device =>
    simp only [step, ite_none_right_eq_some] at stepped
    cases found : σ.timerOf device with
    | none => simp [found] at stepped
    | some t =>
      simp only [found] at stepped
      cases enabled : σ.timerEnabled t with
      | true =>
        simp only [enabled, ↓reduceIte, some.injEq] at stepped
        rwa [← stepped.2]
      | false =>
        simp only [enabled, Bool.false_eq_true, ↓reduceIte, some.injEq] at stepped
        rw [← stepped.2]
        exact ordered.setOp rfl
  | stopTimer thread device =>
    simp only [step, ite_none_right_eq_some] at stepped
    cases found : σ.timerOf device with
    | none => simp [found] at stepped
    | some t =>
      simp only [found, some.injEq] at stepped
      rw [← stepped.2]
      exact ordered.setOp rfl
  | removeTimer thread t =>
    simp only [step, ite_none_right_eq_some, some.injEq] at stepped
    rw [← stepped.2]
    exact ordered.setOp rfl
  | tick thread => exact ordered.tick stepped
  | acquire thread => exact ordered.acquire meets stepped
  | advance thread => exact ordered.advance_step stepped
  | routineReturns thread =>
    simp only [step] at stepped
    split at stepped
    · rename_i found
      obtain ⟨inside, same⟩ := ite_none_right_eq_some.mp stepped
      cases same
      exact ordered.routineReturns found inside
    · cases stepped

theorem meets_of_stuck (stuck : σ.step (.acquire thread) = none) : σ.Meets (.acquire thread) := by
  cases op : σ.op thread with
  | idle | allocating | alreadyOwned | nullLinks => simp [Meets, op]
  | acquiring wanted =>
    simp only [step, op] at stuck
    simp only [Meets, op]
    cases held : σ.holder with
    | some holder =>
      have other : holder ≠ thread := by simpa [held] using stuck
      exact ⟨fun same => other (some.inj same), fun same => by cases same⟩
    | none =>
      simp only [held] at stuck
      split at stuck <;> cases stuck

/-- Over every run, the timers stay in order exactly when no thread wants the lock that it
holds and each section finds its timer as it must. -/
theorem timers_sound_iff (actions : List (TimerAction Thread Device Routine)) :
    Along (fun σ a => ∀ τ, step σ a = some τ → τ.Sound) step (obioInitTimers Thread Device Routine) actions ↔
      Along Meets step (obioInitTimers Thread Device Routine) actions := by
  refine along_good_iff (P := Ordered) (fun {σ a τ} ordered stepped => ?_) (fun {σ a} ordered stuck => ?_)
    (fun ordered meets stepped => ordered.step meets stepped) ?_
  · refine ⟨fun kept => ?_, fun meets => (ordered.step meets stepped).sound⟩
    cases a with
    | acquire thread => exact ordered.acquire_meets stepped kept
    | _ => trivial
  · cases a with
    | acquire thread => exact meets_of_stuck stuck
    | _ => trivial
  · exact obioInitTimers_ordered

/-- A device whose timer is initialised twice, a routine that stops its own timer, and a
timer that is removed twice. -/
theorem timer_listed_twice_or_stopped :
    (∃ τ, exec step (obioInitTimers Nat Nat Nat)
      [.initializeIoTimer 0 0 7, .allocate 0 true, .acquire 0, .initializeIoTimer 0 0 7, .acquire 0] = some τ ∧
        τ.queue = [0, 0] ∧ ¬ τ.Sound) ∧
    (∃ τ, exec step (obioInitTimers Nat Nat Nat)
      [.initializeIoTimer 0 0 7, .allocate 0 true, .acquire 0, .startTimer 0 0, .acquire 0, .tick 1, .acquire 1,
        .advance 1, .stopTimer 1 0, .acquire 1] = some τ ∧ τ.op 1 = .alreadyOwned ∧ ¬ τ.Sound) ∧
    ∃ τ, exec step (obioInitTimers Nat Nat Nat)
      [.initializeIoTimer 0 0 7, .allocate 0 true, .acquire 0, .removeTimer 0 0, .acquire 0, .removeTimer 0 0,
        .acquire 0] = some τ ∧ τ.op 0 = .nullLinks ∧ ¬ τ.Sound :=
  ⟨⟨_, rfl, rfl, fun sound => absurd sound.distinct (by decide)⟩, ⟨_, rfl, rfl, fun sound => nomatch sound.runs 1⟩,
    ⟨_, rfl, rfl, fun sound => nomatch sound.runs 0⟩⟩

end Steps
end IoTimerState
end VeaOS.Ob
