import VeaOS.Foundation.Runs
import VeaOS.Ks.TimerList

/-! Runs of the timer queue. The list stays in the order in which expiry reads
it as long as no relative due time runs past the largest signed time. -/
namespace VeaOS.Ks
open Transition Function List
open TimerQueue (setTimer removeEntryList)
variable {Timer Dpc : Type} [DecidableEq Timer]

theorem pairwise_orderedInsert {lt le : α → α → Prop} [DecidableRel lt] {l : List α}
    (trans : ∀ {a b c}, le a b → le b c → le a c) (sorted : l.Pairwise le)
    (splits : ∀ b ∈ l, (lt a b → le a b) ∧ (¬ lt a b → le b a)) :
    (l.orderedInsert lt a).Pairwise le := by
  induction l with
  | nil => exact pairwise_singleton le a
  | cons b rest ih =>
    obtain ⟨first, sorted⟩ := pairwise_cons.mp sorted
    obtain ⟨before, after⟩ := splits b mem_cons_self
    rw [orderedInsert_cons]
    split
    next less =>
      refine pairwise_cons.mpr ⟨?_, pairwise_cons.mpr ⟨first, sorted⟩⟩
      intro c member
      rcases mem_cons.mp member with rfl | member
      · exact before less
      · exact trans (before less) (first c member)
    next notLess =>
      refine pairwise_cons.mpr ⟨?_, ih sorted fun c member => splits c (mem_cons_of_mem b member)⟩
      intro c member
      rcases (mem_orderedInsert lt).mp member with rfl | member
      · exact after notLess
      · exact first c member

omit [DecidableEq Timer] in
@[simp] theorem mem_insertTimerSorted {σ : TimerQueue Timer Dpc} :
    x ∈ (ksiInsertTimerSorted σ timer).ksTimerListHead ↔ x = timer ∨ x ∈ σ.ksTimerListHead :=
  mem_orderedInsert _

omit [DecidableEq Timer] in
@[simp] theorem insertTimerSorted_timer {σ : TimerQueue Timer Dpc} :
    (ksiInsertTimerSorted σ timer).timer = σ.timer := rfl

/-- The list holds the active timers, each once, in the order of their due times. -/
structure Armed (σ : TimerQueue Timer Dpc) : Prop where
  once : σ.ksTimerListHead.Nodup
  active (timer) : (σ.timer timer).active = true ↔ timer ∈ σ.ksTimerListHead
  sorted : σ.ksTimerListHead.Pairwise fun s t => (σ.timer s).dueTime ≤ (σ.timer t).dueTime
  fits {timer} : timer ∈ σ.ksTimerListHead → (σ.timer timer).dueTime.toNat < 0x8000000000000000

namespace Armed
variable {σ : TimerQueue Timer Dpc}

theorem remove (armed : Armed σ) (inactive : record.active = false) :
    Armed ((σ.removeEntryList timer).setTimer timer record) := by
  have member : ∀ {x}, x ∈ σ.ksTimerListHead.erase timer ↔ x ≠ timer ∧ x ∈ σ.ksTimerListHead :=
    armed.once.mem_erase_iff
  constructor
  case once => exact armed.once.erase timer
  case active =>
    intro x
    simp only [setTimer, removeEntryList, member, update_apply]
    split
    next same => simp [inactive, same]
    next other => simp [other, armed.active]
  case sorted =>
    apply (armed.sorted.sublist erase_sublist).imp_of_mem
    intro s t first second order
    simp only [setTimer, removeEntryList, update_of_ne (member.mp first).1,
      update_of_ne (member.mp second).1]
    exact order
  case fits =>
    intro x inside
    obtain ⟨other, inside⟩ := member.mp inside
    simp only [setTimer, removeEntryList, update_of_ne other]
    exact armed.fits inside

theorem insert (armed : Armed σ) (absent : timer ∉ σ.ksTimerListHead) (active : record.active = true)
    (fits : record.dueTime.toNat < 0x8000000000000000) :
    Armed (ksiInsertTimerSorted (σ.setTimer timer record) timer) := by
  have apart : ∀ {x}, x ∈ σ.ksTimerListHead → x ≠ timer := fun inside same => absent (same ▸ inside)
  have self : ((σ.setTimer timer record).timer timer) = record := update_self ..
  have other : ∀ {x}, x ≠ timer → (σ.setTimer timer record).timer x = σ.timer x :=
    fun different => update_of_ne different ..
  constructor
  case once =>
    have perm := perm_orderedInsert
      (fun s t => ((σ.setTimer timer record).timer s).dueTime.slt
        ((σ.setTimer timer record).timer t).dueTime = true) timer σ.ksTimerListHead
    exact perm.nodup_iff.mpr (nodup_cons.mpr ⟨absent, armed.once⟩)
  case active =>
    intro x
    rw [mem_insertTimerSorted]
    by_cases same : x = timer
    · subst same
      exact ⟨fun _ => Or.inl rfl, fun _ => (congrArg KTimer.active self).trans active⟩
    · rw [or_iff_right same]
      exact (iff_of_eq (congrArg (·.active = true) (other same))).trans (armed.active x)
  case sorted =>
    apply pairwise_orderedInsert
    · exact fun first second => BitVec.le_trans first second
    · apply armed.sorted.imp_of_mem
      intro s t first second order
      rwa [insertTimerSorted_timer, other (apart first), other (apart second)]
    · intro x inside
      have bound := armed.fits inside
      rw [insertTimerSorted_timer, self, other (apart inside), BitVec.slt_iff_toInt_lt, BitVec.le_def, BitVec.le_def,
        BitVec.toInt_eq_toNat_of_lt (by omega), BitVec.toInt_eq_toNat_of_lt (by omega)]
      omega
  case fits =>
    intro x inside
    rcases mem_insertTimerSorted.mp inside with rfl | inside
    · exact (congrArg (·.dueTime.toNat) self).trans_lt fits
    · exact (congrArg (·.dueTime.toNat) (other (apart inside))).trans_lt (armed.fits inside)

theorem set (armed : Armed σ)
    (fits : (if dueTime.slt 0 then σ.ksSystemTime - dueTime else dueTime).toNat < 0x8000000000000000) :
    Armed (ksSetTimer σ timer dueTime period dpc).1 := by
  simp only [ksSetTimer]
  split
  next active =>
    have removed : Armed ((σ.removeEntryList timer).setTimer timer { σ.timer timer with active := false }) :=
      armed.remove rfl
    have absent : timer ∉ σ.ksTimerListHead.erase timer := fun inside =>
      (armed.once.mem_erase_iff.mp inside).1 rfl
    let record : KTimer Dpc :=
      ⟨if dueTime.slt 0 then σ.ksSystemTime - dueTime else dueTime, period, dpc, true⟩
    have twice : ((σ.removeEntryList timer).setTimer timer { σ.timer timer with active := false }).setTimer
        timer record = (σ.removeEntryList timer).setTimer timer record := by
      simp only [setTimer, update_idem]
    have inserted : Armed (ksiInsertTimerSorted
        (((σ.removeEntryList timer).setTimer timer { σ.timer timer with active := false }).setTimer timer
          record) timer) := removed.insert absent rfl fits
    exact twice ▸ inserted
  next inactive =>
    have absent : timer ∉ σ.ksTimerListHead := fun inside => inactive ((armed.active timer).mpr inside)
    exact armed.insert absent rfl fits

end Armed

theorem nextDue (current : currentSystemTime.toNat < 0x4000000000000000)
    (periodic : (0 : BitVec 32).slt period = true) :
    currentSystemTime < currentSystemTime + period.signExtend 64 * 10000 ∧
    (currentSystemTime + period.signExtend 64 * 10000).toNat < 0x8000000000000000 := by
  have positive : 0 < period.toInt := by simpa [BitVec.slt_iff_toInt_lt] using periodic
  have small : period.toNat < 0x80000000 := by
    by_contra big
    rw [BitVec.toInt_eq_toNat_cond] at positive
    split at positive <;> omega
  have unsigned : period.toInt = period.toNat := BitVec.toInt_eq_toNat_of_lt (by omega)
  have extended : (period.signExtend 64).toNat = period.toNat := by
    rw [BitVec.signExtend_eq_setWidth_of_msb_false (by rw [BitVec.msb_eq_decide]; simp; omega),
      BitVec.toNat_setWidth]
    omega
  have product : (period.signExtend 64 * 10000).toNat = period.toNat * 10000 := by
    rw [BitVec.toNat_mul, extended, show (10000 : BitVec 64).toNat = 10000 from rfl,
      Nat.mod_eq_of_lt (by omega)]
  have sum : (currentSystemTime + period.signExtend 64 * 10000).toNat
      = currentSystemTime.toNat + period.toNat * 10000 := by
    rw [BitVec.toNat_add, product, Nat.mod_eq_of_lt (by omega)]
  rw [BitVec.lt_def, sum]
  omega

def dueTimers (now : BitVec 64) (σ : TimerQueue Timer Dpc) : List Timer :=
  σ.ksTimerListHead.filter fun timer => (σ.timer timer).dueTime ≤ now

/-- What one pass of the loop does to a timer that is due. -/
structure Passed (now : BitVec 64) (timer : Timer) (σ σ' : TimerQueue Timer Dpc) : Prop where
  armed : Armed σ'
  oneShot : (0 : BitVec 32).slt (σ.timer timer).period = false →
    σ'.timer timer = { σ.timer timer with active := false }
  periodic : (0 : BitVec 32).slt (σ.timer timer).period = true →
    σ'.timer timer = { σ.timer timer with
      dueTime := now + (σ.timer timer).period.signExtend 64 * 10000, active := true } ∧
    now < (σ'.timer timer).dueTime
  other {x} : x ≠ timer → σ'.timer x = σ.timer x
  member {x} : x ≠ timer → (x ∈ σ'.ksTimerListHead ↔ x ∈ σ.ksTimerListHead)
  notDue : timer ∈ σ'.ksTimerListHead → now < (σ'.timer timer).dueTime
  fewer : (dueTimers now σ').length < (dueTimers now σ).length
  length : σ'.ksTimerListHead.length ≤ σ.ksTimerListHead.length

theorem Armed.expireEntry {σ : TimerQueue Timer Dpc} (armed : Armed σ)
    (head : σ.ksTimerListHead = timer :: rest) (isDue : (σ.timer timer).dueTime ≤ now)
    (current : now.toNat < 0x4000000000000000) : Passed now timer σ (expireEntry now σ timer) := by
  obtain ⟨absent, distinct⟩ := nodup_cons.mp (head ▸ armed.once)
  have removed : Armed ((σ.removeEntryList timer).setTimer timer { σ.timer timer with active := false }) :=
    armed.remove rfl
  generalize gone : (σ.removeEntryList timer).setTimer timer { σ.timer timer with active := false } = σ₁
    at removed
  have list : σ₁.ksTimerListHead = rest := by
    rw [← gone]
    simp only [setTimer, removeEntryList, head, erase_cons_head]
  have other : ∀ {x}, x ≠ timer → σ₁.timer x = σ.timer x := by
    intro x different
    rw [← gone]
    exact update_of_ne different ..
  have self : σ₁.timer timer = { σ.timer timer with active := false } := by
    rw [← gone]
    exact update_self ..
  have inside : ∀ {x}, x ∈ rest → x ≠ timer := fun member same => absent (same ▸ member)
  have due : dueTimers now σ = timer :: rest.filter fun x => (σ.timer x).dueTime ≤ now := by
    rw [dueTimers, head, filter_cons_of_pos (by simpa using isDue)]
  cases periodic : (0 : BitVec 32).slt (σ.timer timer).period with
  | false =>
    have result : VeaOS.Ks.expireEntry now σ timer = σ₁ := by
      simp only [VeaOS.Ks.expireEntry, gone, periodic, Bool.false_eq_true, if_false]
    rw [result]
    constructor
    case armed => exact removed
    case oneShot => exact fun _ => self
    case periodic => exact fun again => absurd (periodic.symm.trans again) Bool.noConfusion
    case other => exact other
    case member =>
      intro x different
      rw [list, head, mem_cons, or_iff_right different]
    case notDue => exact fun member => absurd (list ▸ member) absent
    case fewer =>
      rw [due, dueTimers, list, filter_congr (fun x member => by rw [other (inside member)])]
      exact Nat.lt_succ_self _
    case length =>
      rw [list, head]
      exact Nat.le_succ _
  | true =>
    obtain ⟨later, fits⟩ := nextDue current periodic
    let record : KTimer Dpc := { σ.timer timer with
      dueTime := now + (σ.timer timer).period.signExtend 64 * 10000, active := true }
    have result : VeaOS.Ks.expireEntry now σ timer
        = ksiInsertTimerSorted (σ₁.setTimer timer record) timer := by
      simp only [VeaOS.Ks.expireEntry, gone, periodic, if_true, record]
    have self' : (σ₁.setTimer timer record).timer timer = record := update_self ..
    have other' : ∀ {x}, x ≠ timer → (σ₁.setTimer timer record).timer x = σ.timer x :=
      fun different => (update_of_ne different ..).trans (other different)
    have perm : (ksiInsertTimerSorted (σ₁.setTimer timer record) timer).ksTimerListHead.Perm
        (timer :: rest) := list ▸ perm_orderedInsert ..
    rw [result]
    constructor
    case armed => exact removed.insert (list.symm ▸ absent) rfl fits
    case oneShot => exact fun again => absurd (periodic.symm.trans again) Bool.noConfusion
    case periodic => exact fun _ => ⟨self', (congrArg KTimer.dueTime self').symm ▸ later⟩
    case other => exact other'
    case member =>
      intro x different
      rw [perm.mem_iff, head]
    case notDue => exact fun _ => (congrArg KTimer.dueTime self').symm ▸ later
    case fewer =>
      have kept := (perm.filter fun x =>
        ((ksiInsertTimerSorted (σ₁.setTimer timer record) timer).timer x).dueTime ≤ now).length_eq
      rw [due, dueTimers, kept, filter_cons_of_neg, filter_congr
        (fun x member => by rw [insertTimerSorted_timer, other' (inside member)])]
      · exact Nat.lt_succ_self _
      · rw [insertTimerSorted_timer, self']
        simpa [record] using later
    case length => rw [perm.length_eq, head]

/-- What an expiry check does: it signals the timers of the list that are due,
each once, and leaves none of them due. -/
structure Checked (now : BitVec 64) (σ σ' : TimerQueue Timer Dpc)
    (expired : List (Expiration Timer Dpc)) : Prop where
  armed : Armed σ'
  clear {timer} : timer ∈ σ'.ksTimerListHead → now < (σ'.timer timer).dueTime
  signals (timer) : (expired.map Expiration.timer).count timer =
    if timer ∈ σ.ksTimerListHead ∧ (σ.timer timer).dueTime ≤ now then 1 else 0
  dpc {expiration} : expiration ∈ expired → expiration.dpc = (σ.timer expiration.timer).dpc
  kept {timer} : timer ∉ expired.map Expiration.timer → σ'.timer timer = σ.timer timer
  oneShot {timer} : timer ∈ expired.map Expiration.timer →
    (0 : BitVec 32).slt (σ.timer timer).period = false →
    σ'.timer timer = { σ.timer timer with active := false }
  periodic {timer} : timer ∈ expired.map Expiration.timer →
    (0 : BitVec 32).slt (σ.timer timer).period = true →
    σ'.timer timer = { σ.timer timer with
      dueTime := now + (σ.timer timer).period.signExtend 64 * 10000, active := true } ∧
    timer ∈ σ'.ksTimerListHead ∧ now < (σ'.timer timer).dueTime
  length : σ'.ksTimerListHead.length ≤ σ.ksTimerListHead.length

theorem Checked.idle {σ : TimerQueue Timer Dpc} (armed : Armed σ)
    (clear : ∀ {timer}, timer ∈ σ.ksTimerListHead → now < (σ.timer timer).dueTime) :
    Checked now σ σ [] where
  armed := armed
  clear := clear
  signals timer := by
    rw [if_neg]
    · rfl
    · rintro ⟨member, isDue⟩
      exact absurd (clear member) (BitVec.not_lt.mpr isDue)
  dpc member := absurd member not_mem_nil
  kept _ := rfl
  oneShot member := absurd member not_mem_nil
  periodic member := absurd member not_mem_nil
  length := Nat.le_refl _

theorem Checked.cons {σ σ₁ σ' : TimerQueue Timer Dpc} (passed : Passed now timer σ σ₁)
    (member : timer ∈ σ.ksTimerListHead) (isDue : (σ.timer timer).dueTime ≤ now)
    (checked : Checked now σ₁ σ' expired) :
    Checked now σ σ' (⟨timer, (σ.timer timer).dpc⟩ :: expired) := by
  have once : timer ∉ expired.map Expiration.timer := by
    apply count_eq_zero.mp
    rw [checked.signals, if_neg]
    rintro ⟨again, stillDue⟩
    exact absurd (passed.notDue again) (BitVec.not_lt.mpr stillDue)
  have apart : ∀ {x}, x ∈ expired.map Expiration.timer → x ≠ timer := fun later same => once (same ▸ later)
  constructor
  case armed => exact checked.armed
  case clear => exact checked.clear
  case signals =>
    intro x
    rw [map_cons, count_cons, checked.signals]
    by_cases same : x = timer
    · subst same
      have zero : (expired.map Expiration.timer).count x = 0 := count_eq_zero.mpr once
      rw [checked.signals] at zero
      rw [zero, if_pos (beq_self_eq_true x), if_pos ⟨member, isDue⟩]
    · have miss : ¬ (timer == x) = true := by simpa using Ne.symm same
      simp only [passed.other same, passed.member same, if_neg miss, Nat.add_zero]
  case dpc =>
    intro expiration inside
    rcases mem_cons.mp inside with rfl | inside
    · rfl
    · rw [checked.dpc inside, passed.other (apart (mem_map_of_mem inside))]
  case kept =>
    intro x outside
    rw [map_cons, mem_cons, not_or] at outside
    obtain ⟨different, outside⟩ := outside
    rw [checked.kept outside, passed.other different]
  case oneShot =>
    intro x inside single
    by_cases same : x = timer
    · subst same
      rw [checked.kept once]
      exact passed.oneShot single
    · have inside := (mem_cons.mp inside).resolve_left same
      rw [← passed.other same] at single ⊢
      exact checked.oneShot inside single
  case periodic =>
    intro x inside again
    by_cases same : x = timer
    · subst same
      obtain ⟨record, later⟩ := passed.periodic again
      rw [checked.kept once]
      refine ⟨record, ?_, later⟩
      rw [← checked.armed.active, checked.kept once, record]
    · have inside := (mem_cons.mp inside).resolve_left same
      rw [← passed.other same] at again ⊢
      exact checked.periodic inside again
  case length => exact checked.length.trans passed.length

theorem Armed.check {σ : TimerQueue Timer Dpc} (armed : Armed σ)
    (current : now.toNat < 0x4000000000000000) (enough : (dueTimers now σ).length < fuel) :
    ∃ σ' expired, ksiCheckTimerExpiration now fuel σ = some (σ', expired) ∧
      Checked now σ σ' expired := by
  induction fuel generalizing σ with
  | zero => exact absurd enough (Nat.not_lt_zero _)
  | succ fuel ih =>
    rw [ksiCheckTimerExpiration]
    split
    next empty =>
      exact ⟨σ, [], rfl, .idle armed fun member => absurd (empty ▸ member) not_mem_nil⟩
    next timer rest head =>
      split
      next early =>
        refine ⟨σ, [], rfl, .idle armed fun {x} member => ?_⟩
        rw [head] at member
        rcases mem_cons.mp member with rfl | member
        · exact early
        · have order := (pairwise_cons.mp (head ▸ armed.sorted)).1 x member
          rw [BitVec.lt_def] at early ⊢
          exact Nat.lt_of_lt_of_le early (BitVec.le_def.mp order)
      next isDue =>
        have passed := armed.expireEntry head (BitVec.not_lt.mp isDue) current
        obtain ⟨σ', expired, done, checked⟩ :=
          ih passed.armed (Nat.lt_of_lt_of_le passed.fewer (Nat.le_of_lt_succ enough))
        refine ⟨σ', _, by rw [done]; rfl, ?_⟩
        exact checked.cons passed (head ▸ mem_cons_self) (BitVec.not_lt.mp isDue)

section History

/-- What callers and waiters of the timers see, the latest first. -/
inductive TimerEvent (Timer : Type) where
  | set (timer : Timer)
  | cancelled (timer : Timer)
  | expired (timer : Timer) (time : BitVec 64)

/-- The times a timer expired since it was last armed. -/
def firings (timer : Timer) : List (TimerEvent Timer) → List (BitVec 64)
  | [] => []
  | .set x :: events => if x = timer then [] else firings timer events
  | .cancelled _ :: events => firings timer events
  | .expired x time :: events => if x = timer then time :: firings timer events else firings timer events

/-- The timer was armed and no later cancel found it active. -/
def pending (timer : Timer) : List (TimerEvent Timer) → Bool
  | [] => false
  | .set x :: events => x = timer || pending timer events
  | .cancelled x :: events => x ≠ timer && pending timer events
  | .expired _ _ :: events => pending timer events

structure TimerRun (Timer Dpc : Type) where
  queue : TimerQueue Timer Dpc
  events : List (TimerEvent Timer)

/-- The expirations of one check, added to the events before it. -/
def record (now : BitVec 64) (expired : List (Expiration Timer Dpc)) (events : List (TimerEvent Timer)) :
    List (TimerEvent Timer) :=
  expired.foldl (fun events expiration => .expired expiration.timer now :: events) events

def timerStep (fuel : Nat) (σ : TimerRun Timer Dpc) : TimerAction Timer Dpc → Option (TimerRun Timer Dpc)
  | .advance increment => some ⟨ksiAdvanceSystemTime σ.queue increment, σ.events⟩
  | .set timer dueTime period dpc =>
    some ⟨(ksSetTimer σ.queue timer dueTime period dpc).1, .set timer :: σ.events⟩
  | .cancel timer =>
    let result := ksCancelTimer σ.queue timer
    some ⟨result.1, if result.2 then .cancelled timer :: σ.events else σ.events⟩
  | .check now =>
    (ksiCheckTimerExpiration now fuel σ.queue).map fun result => ⟨result.1, record now result.2 σ.events⟩

theorem firings_record {expired : List (Expiration Timer Dpc)} :
    firings timer (record now expired events) =
      replicate ((expired.map Expiration.timer).count timer) now ++ firings timer events := by
  induction expired generalizing events with
  | nil => rfl
  | cons expiration rest ih =>
    simp only [record] at ih ⊢
    rw [foldl_cons, ih, firings, map_cons, count_cons]
    by_cases same : expiration.timer = timer
    · rw [if_pos same, if_pos (beq_iff_eq.mpr same), replicate_succ', append_assoc]
      rfl
    · rw [if_neg same, if_neg (mt beq_iff_eq.mp same), Nat.add_zero]

theorem pending_record {expired : List (Expiration Timer Dpc)} :
    pending timer (record now expired events) = pending timer events := by
  induction expired generalizing events with
  | nil => rfl
  | cons expiration rest ih => exact ih

end History

section Runs
variable {σ : TimerRun Timer Dpc}

/-- A one-shot timer that is armed and not cancelled since waits on the list or
expired once, when it was due; any other has not expired since it was armed. -/
structure OneShot (σ : TimerRun Timer Dpc) (timer : Timer) : Prop where
  waits : pending timer σ.events = true →
    ((σ.queue.timer timer).active = true ∧ firings timer σ.events = []) ∨
    ((σ.queue.timer timer).active = false ∧
      ∃ time, firings timer σ.events = [time] ∧ (σ.queue.timer timer).dueTime ≤ time)
  silent : pending timer σ.events = false →
    (σ.queue.timer timer).active = false ∧ firings timer σ.events = []

theorem OneShot.congr {σ' : TimerRun Timer Dpc} (oneShot : OneShot σ timer)
    (record : σ'.queue.timer timer = σ.queue.timer timer)
    (fired : firings timer σ'.events = firings timer σ.events)
    (armed : pending timer σ'.events = pending timer σ.events) : OneShot σ' timer := by
  constructor
  · rw [armed, record, fired]
    exact oneShot.waits
  · rw [armed, record, fired]
    exact oneShot.silent

structure Scheduled (n : Nat) (σ : TimerRun Timer Dpc) : Prop where
  armed : Armed σ.queue
  oneShot {timer} : (0 : BitVec 32).slt (σ.queue.timer timer).period = false → OneShot σ timer
  length : σ.queue.ksTimerListHead.length ≤ n

/-- The times the clock and the expiry check are at stay below `2 ^ 62`. -/
def InRange (σ : TimerRun Timer Dpc) : TimerAction Timer Dpc → Prop
  | .advance increment => σ.queue.ksSystemTime.toNat + increment.toNat < 0x4000000000000000
  | .check now => now.toNat < 0x4000000000000000
  | _ => True

/-- A relative due time does not run past the largest signed time. -/
def DueFits (σ : TimerRun Timer Dpc) : TimerAction Timer Dpc → Prop
  | .set _ dueTime _ _ => dueTime.slt 0 →
      (σ.queue.ksSystemTime - dueTime).toNat < 0x8000000000000000
  | _ => True

section
variable (scheduled : Scheduled n σ)
include scheduled

theorem Scheduled.set (fits : dueTime.slt 0 → (σ.queue.ksSystemTime - dueTime).toNat < 0x8000000000000000) :
    Scheduled (n + 1)
      ⟨(ksSetTimer σ.queue timer dueTime period dpc).1, .set timer :: σ.events⟩ := by
  have fits : (if dueTime.slt 0 then σ.queue.ksSystemTime - dueTime else dueTime).toNat
      < 0x8000000000000000 := by
    split
    next relative => exact fits relative
    next absolute =>
      rw [BitVec.slt_iff_toInt_lt, BitVec.toInt_eq_toNat_cond] at absolute
      split at absolute
      · omega
      · have := dueTime.isLt
        rw [show (0 : BitVec 64).toInt = 0 from rfl] at absolute
        omega
  have armed : Armed (ksSetTimer σ.queue timer dueTime period dpc).1 := scheduled.armed.set fits
  have active : ((ksSetTimer σ.queue timer dueTime period dpc).1.timer timer).active = true := by
    simp only [ksSetTimer, insertTimerSorted_timer, setTimer, update_self]
  have other : ∀ {x}, x ≠ timer →
      (ksSetTimer σ.queue timer dueTime period dpc).1.timer x = σ.queue.timer x := by
    intro x different
    simp only [ksSetTimer, insertTimerSorted_timer, setTimer, update_of_ne different]
    split <;> rfl
  constructor
  case armed => exact armed
  case oneShot =>
    intro x single
    by_cases same : x = timer
    · subst same
      refine ⟨fun _ => Or.inl ⟨active, if_pos rfl⟩, fun absent => ?_⟩
      simp [pending] at absent
    · rw [other same] at single
      apply (scheduled.oneShot single).congr (other same)
      · exact if_neg (Ne.symm same)
      · simp [pending, Ne.symm same]
  case length =>
    have bound := scheduled.length
    simp only [ksSetTimer, ksiInsertTimerSorted, orderedInsert_length]
    split
    · exact Nat.succ_le_succ ((length_erase_le ..).trans bound)
    · exact Nat.succ_le_succ bound

theorem Scheduled.cancel : Scheduled n ⟨(ksCancelTimer σ.queue timer).1,
      if (ksCancelTimer σ.queue timer).2 then .cancelled timer :: σ.events else σ.events⟩ := by
  cases active : (σ.queue.timer timer).active with
  | false => simpa only [ksCancelTimer, active, Bool.false_eq_true, if_false] using scheduled
  | true =>
    have armed : Armed ((σ.queue.removeEntryList timer).setTimer timer
        { σ.queue.timer timer with active := false }) := scheduled.armed.remove rfl
    simp only [ksCancelTimer, active, if_true]
    generalize gone : (σ.queue.removeEntryList timer).setTimer timer
      { σ.queue.timer timer with active := false } = queue at armed
    have self : queue.timer timer = { σ.queue.timer timer with active := false } := by
      rw [← gone]
      exact update_self ..
    have other : ∀ {x}, x ≠ timer → queue.timer x = σ.queue.timer x := by
      intro x different
      rw [← gone]
      exact update_of_ne different ..
    constructor
    case armed => exact armed
    case oneShot =>
      intro x single
      by_cases same : x = timer
      · subst same
        rw [self] at single
        have before := scheduled.oneShot single
        have waiting : firings x σ.events = [] := by
          cases armed : pending x σ.events with
          | false => exact (before.silent armed).2
          | true =>
            rcases before.waits armed with waits | fired
            · exact waits.2
            · exact absurd (active.symm.trans fired.1) Bool.noConfusion
        refine ⟨fun again => ?_, fun _ => ⟨congrArg KTimer.active self, waiting⟩⟩
        simp [pending] at again
      · rw [other same] at single
        apply (scheduled.oneShot single).congr (other same)
        · rfl
        · simp [pending, Ne.symm same]
    case length =>
      rw [← gone]
      exact (length_erase_le ..).trans scheduled.length

theorem Scheduled.check (checked : Checked now σ.queue queue expired) :
    Scheduled n ⟨queue, record now expired σ.events⟩ := by
  have signalled : ∀ {x}, x ∈ expired.map Expiration.timer →
      (expired.map Expiration.timer).count x = 1 ∧ x ∈ σ.queue.ksTimerListHead ∧
        (σ.queue.timer x).dueTime ≤ now := by
    intro x member
    have positive := count_pos_iff.mpr member
    have count := checked.signals x
    split at count
    next isDue => exact ⟨count, isDue⟩
    next => omega
  constructor
  case armed => exact checked.armed
  case oneShot =>
    intro x single
    by_cases member : x ∈ expired.map Expiration.timer
    · obtain ⟨once, onList, isDue⟩ := signalled member
      cases again : (0 : BitVec 32).slt (σ.queue.timer x).period with
      | true =>
        rw [(checked.periodic member again).1] at single
        exact absurd (again.symm.trans single) Bool.noConfusion
      | false =>
        have before := scheduled.oneShot again
        have active := (scheduled.armed.active x).mpr onList
        have after := checked.oneShot member again
        constructor
        · intro armed
          rw [pending_record] at armed
          rcases before.waits armed with waits | fired
          · right
            rw [after]
            refine ⟨rfl, now, ?_, isDue⟩
            rw [firings_record, once, waits.2]
            rfl
          · exact absurd (active.symm.trans fired.1) Bool.noConfusion
        · intro absent
          rw [pending_record] at absent
          exact absurd (active.symm.trans (before.silent absent).1) Bool.noConfusion
    · have same := checked.kept member
      rw [same] at single
      apply (scheduled.oneShot single).congr same
      · rw [firings_record, count_eq_zero.mpr member]
        rfl
      · exact pending_record
  case length => exact checked.length.trans scheduled.length

theorem Scheduled.mono (more : n ≤ m) : Scheduled m σ :=
  ⟨scheduled.armed, scheduled.oneShot, scheduled.length.trans more⟩

theorem Scheduled.enough (bound : n < fuel) (now : BitVec 64) : (dueTimers now σ.queue).length < fuel :=
  Nat.lt_of_le_of_lt ((length_filter_le ..).trans scheduled.length) bound

theorem Scheduled.step (range : InRange σ action) (fits : DueFits σ action) (bound : n < fuel) :
    ∃ σ', timerStep fuel σ action = some σ' ∧ Scheduled (n + 1) σ' := by
  cases action with
  | advance increment =>
    obtain ⟨⟨once, active, sorted, inside⟩, oneShot, length⟩ := scheduled
    exact ⟨_, rfl, ⟨once, active, sorted, inside⟩, fun single => (oneShot single).congr rfl rfl rfl,
      length.trans (Nat.le_succ n)⟩
  | set timer dueTime period dpc => exact ⟨_, rfl, scheduled.set fits⟩
  | cancel timer => exact ⟨_, rfl, scheduled.cancel.mono (Nat.le_succ n)⟩
  | check now =>
    obtain ⟨queue, expired, done, checked⟩ := scheduled.armed.check range (scheduled.enough bound now)
    refine ⟨_, ?_, (scheduled.check checked).mono (Nat.le_succ n)⟩
    rw [timerStep, done]
    rfl

end

/-- The timer list is in order, one-shot timers keep their promise, and every
check ends and signals exactly the timers that are due. -/
structure TimersCorrect (σ : TimerRun Timer Dpc) : Prop where
  once : σ.queue.ksTimerListHead.Nodup
  active (timer) : (σ.queue.timer timer).active = true ↔ timer ∈ σ.queue.ksTimerListHead
  sorted : σ.queue.ksTimerListHead.Pairwise fun s t =>
    (σ.queue.timer s).dueTime ≤ (σ.queue.timer t).dueTime
  oneShot {timer} : (0 : BitVec 32).slt (σ.queue.timer timer).period = false → OneShot σ timer
  check {now fuel} : now.toNat < 0x4000000000000000 → σ.queue.ksTimerListHead.length < fuel →
    ∃ queue expired, ksiCheckTimerExpiration now fuel σ.queue = some (queue, expired) ∧
      Checked now σ.queue queue expired

theorem Scheduled.correct (scheduled : Scheduled n σ) : TimersCorrect σ where
  once := scheduled.armed.once
  active := scheduled.armed.active
  sorted := scheduled.armed.sorted
  oneShot := scheduled.oneShot
  check range bound := scheduled.armed.check range
    (Nat.lt_of_le_of_lt (length_filter_le ..) bound)

/-- In every run whose relative due times stay in the signed range, every state
reached keeps the timers. -/
theorem timer_runs {actions : List (TimerAction Timer Dpc)}
    (admitted : Along (fun σ action => InRange σ action ∧ DueFits σ action) (timerStep fuel)
      ⟨ksInitializeTimers, []⟩ actions) (enough : actions.length ≤ fuel) :
    ∃ σ, exec (timerStep fuel) ⟨ksInitializeTimers, []⟩ actions = some σ ∧ TimersCorrect σ := by
  have initial : Scheduled 0 (⟨ksInitializeTimers, []⟩ : TimerRun Timer Dpc) := by
    constructor
    case armed =>
      refine ⟨nodup_nil, fun timer => ?_, Pairwise.nil, fun member => ?_⟩
      · exact ⟨fun active => absurd active Bool.noConfusion, fun member => absurd member not_mem_nil⟩
      · exact absurd member not_mem_nil
    case oneShot => exact fun _ => ⟨fun armed => absurd armed Bool.noConfusion, fun _ => ⟨rfl, rfl⟩⟩
    case length => exact Nat.le_refl 0
  obtain ⟨σ, ended, final⟩ := exec_invariant (P := Scheduled)
    (fun scheduled admits bound => scheduled.step admits.1 admits.2 (bound.trans_le enough))
    initial admitted (show 0 + actions.length ≤ actions.length by omega)
  exact ⟨σ, ended, final.correct⟩

theorem timer_runs_rearm : ∃ σ, exec (timerStep 4) ⟨ksInitializeTimers, []⟩
    ([.set 1 5 0 none, .set 2 (-3) 1 (some ()), .set 1 2 0 none, .check 4] :
      List (TimerAction Nat Unit)) = some σ ∧ TimersCorrect σ := by
  apply timer_runs
  · refine ⟨⟨trivial, fun relative => absurd relative (by decide)⟩, fun σ₁ stepped => ?_⟩
    obtain rfl := Option.some.inj stepped
    refine ⟨⟨trivial, fun _ => by decide⟩, fun σ₂ stepped => ?_⟩
    obtain rfl := Option.some.inj stepped
    refine ⟨⟨trivial, fun relative => absurd relative (by decide)⟩, fun σ₃ stepped => ?_⟩
    obtain rfl := Option.some.inj stepped
    exact ⟨⟨show (4 : BitVec 64).toNat < 0x4000000000000000 by decide, trivial⟩, fun σ₄ stepped => trivial⟩
  · decide

/-- A timer due further ahead than a signed time reaches is put before one that
is due soon, and hides it from the check. -/
theorem due_time_overflow :
    Along InRange (timerStep 2) ⟨ksInitializeTimers, []⟩
      ([.set 1 5 0 none, .set 2 0x8000000000000000 0 none] : List (TimerAction Nat Unit)) ∧
    ∃ σ, exec (timerStep 2) ⟨ksInitializeTimers, []⟩
      ([.set 1 5 0 none, .set 2 0x8000000000000000 0 none] : List (TimerAction Nat Unit)) = some σ ∧
      ¬ TimersCorrect σ := by
  constructor
  · exact ⟨trivial, fun σ₁ _ => ⟨trivial, fun σ₂ _ => trivial⟩⟩
  · refine ⟨_, rfl, fun correct => ?_⟩
    have order := (pairwise_cons.mp correct.sorted).1 1 mem_cons_self
    exact absurd order (by decide)

end Runs
end VeaOS.Ks
