import VeaOS.Ks.SpinLock

/-! A lock has at most one holder in every run. The word names that holder only
where `KsAcquireSpinLock` took the lock and nobody has tried to take it since. -/
namespace VeaOS.Ks
open Transition SpinState Option
variable {Thread Lock : Type} [DecidableEq Thread] [DecidableEq Lock]
variable {address : Thread → BitVec 32} {s s' : SpinState Thread Lock}

/-- What the word of a lock says about the thread that holds it. -/
structure Accounted (address : Thread → BitVec 32) (s : SpinState Thread Lock) : Prop where
  one {lock t u} : HoldsSpinLock s lock t → HoldsSpinLock s lock u → t = u
  storing {lock t} : s.point t = .storingOwner lock →
    ∃ oldIrql, s.taken lock t = some (.acquire, oldIrql) ∧ s.lock lock = 1
  word {lock t form oldIrql} : s.taken lock t = some (form, oldIrql) → s.point t ≠ .storingOwner lock →
    s.lock lock = if form = .acquire ∧ s.contended lock = false then address t ||| 1 else 1
  verifying {lock t oldIrql} : s.point t = .verifying lock oldIrql → HoldsSpinLock s lock t
  clearing {lock t oldIrql} : s.point t = .clearing lock oldIrql → HoldsSpinLock s lock t

/-- A point that says nothing about what the thread holds. -/
def SpinPoint.Passive : SpinPoint Lock → Prop
  | .storingOwner _ | .verifying _ _ | .clearing _ _ => False
  | _ => True

theorem or_one_ne_zero (a : BitVec 32) : a ||| 1 ≠ 0 := by
  intro zero
  have bit := congrArg (fun b => b.getLsbD 0) zero
  simp at bit

omit [DecidableEq Thread] [DecidableEq Lock] in
theorem holds_of_taken {lock : Lock} (taken : s.taken lock t = some how) : HoldsSpinLock s lock t := by
  simp [HoldsSpinLock, taken]

omit [DecidableEq Lock] in
theorem lowerTo_eq (s : SpinState Thread Lock) (t : Thread) (oldIrql : Option (BitVec 8)) :
    ∃ point, s.lowerTo t oldIrql = s.goto t point ∧ point.Passive ∧
      point ≠ .stopped .spinlockIsNotOwned := by
  cases oldIrql with
  | none => exact ⟨.outside, rfl, trivial, by simp⟩
  | some irql =>
    simp only [lowerTo]
    split
    · exact ⟨.lowering irql, rfl, trivial, by simp⟩
    · exact ⟨.outside, rfl, trivial, by simp⟩

namespace Accounted

omit [DecidableEq Thread] [DecidableEq Lock] in
theorem initialized (address : Thread → BitVec 32) (irql : BitVec 8) :
    Accounted address (ksInitializeSpinlocks irql : SpinState Thread Lock) := by
  constructor <;> simp [ksInitializeSpinlocks, HoldsSpinLock]

omit [DecidableEq Thread] [DecidableEq Lock] in
theorem busy {lock : Lock} (held : Accounted address s) (holds : HoldsSpinLock s lock t) : s.lock lock ≠ 0 := by
  obtain ⟨⟨form, oldIrql⟩, taken⟩ := isSome_iff_exists.mp holds
  by_cases storing : s.point t = .storingOwner lock
  · obtain ⟨-, -, word⟩ := held.storing storing
    simp [word]
  · rw [held.word taken storing]
    split
    · exact or_one_ne_zero _
    · simp

omit [DecidableEq Thread] [DecidableEq Lock] in
theorem others {lock : Lock} (held : Accounted address s) (holds : HoldsSpinLock s lock t) (apart : u ≠ t) :
    s.taken lock u = none := by
  cases taken : s.taken lock u with
  | none => rfl
  | some how => exact absurd (held.one (holds_of_taken taken) holds) apart

omit [DecidableEq Thread] [DecidableEq Lock] in
theorem setIrql (held : Accounted address s) (irql : BitVec 8) :
    Accounted address { s with kiCurrentIrql := irql } :=
  ⟨held.one, held.storing, held.word, held.verifying, held.clearing⟩

omit [DecidableEq Lock] in
theorem goto (held : Accounted address s) {point : SpinPoint Lock}
    (left : ∀ lock, s.point t ≠ .storingOwner lock) (entered : ∀ lock, point ≠ .storingOwner lock)
    (verifies : ∀ lock oldIrql, point = .verifying lock oldIrql → HoldsSpinLock s lock t)
    (clears : ∀ lock oldIrql, point = .clearing lock oldIrql → HoldsSpinLock s lock t) :
    Accounted address (s.goto t point) := by
  constructor
  · exact held.one
  · intro lock u storing
    by_cases same : u = t
    · subst same
      exact absurd (by simpa [SpinState.goto] using storing) (entered lock)
    · exact held.storing (by simpa [SpinState.goto, same] using storing)
  · intro lock u form oldIrql taken away
    refine held.word taken fun storing => ?_
    by_cases same : u = t
    · exact left lock (same ▸ storing)
    · exact away (by simpa [SpinState.goto, same] using storing)
  · intro lock u oldIrql verifying
    by_cases same : u = t
    · subst same
      exact verifies lock oldIrql (by simpa [SpinState.goto] using verifying)
    · exact held.verifying (by simpa [SpinState.goto, same] using verifying)
  · intro lock u oldIrql clearing
    by_cases same : u = t
    · subst same
      exact clears lock oldIrql (by simpa [SpinState.goto] using clearing)
    · exact held.clearing (by simpa [SpinState.goto, same] using clearing)

omit [DecidableEq Lock] in
theorem passive (held : Accounted address s) {point : SpinPoint Lock}
    (left : ∀ lock, s.point t ≠ .storingOwner lock) (entered : point.Passive) :
    Accounted address (s.goto t point) := by
  refine held.goto left (fun lock same => ?_) (fun lock oldIrql same => ?_) fun lock oldIrql same => ?_
  all_goals
    subst same
    exact entered.elim

omit [DecidableEq Thread] in
theorem attempt (held : Accounted address s) (lock : Lock) :
    Accounted address ((s.store lock 1).setContended lock true) := by
  constructor
  · exact held.one
  · intro other t storing
    obtain ⟨oldIrql, taken, word⟩ := held.storing storing
    refine ⟨oldIrql, taken, ?_⟩
    by_cases same : other = lock
    · simp [store, setContended, same]
    · simp [store, setContended, same, word]
  · intro other t form oldIrql taken away
    by_cases same : other = lock
    · simp [store, setContended, same]
    · simpa [store, setContended, same] using held.word taken away
  · exact held.verifying
  · exact held.clearing

/-- A thread that is the only one to hold a lock, if any does, may write its
word, as long as the word then fits to what the thread holds. -/
theorem rewrite {lock : Lock} (held : Accounted address s) (sole : ∀ u, u ≠ t → s.taken lock u = none)
    (left : ∀ other, other ≠ lock → s.point t ≠ .storingOwner other) {word : BitVec 32} {contended : Bool}
    {how : Option (SpinForm × Option (BitVec 8))} {point : SpinPoint Lock}
    (storing : ∀ other, point = .storingOwner other →
      other = lock ∧ (∃ oldIrql, how = some (.acquire, oldIrql)) ∧ word = 1)
    (fits : ∀ form oldIrql, how = some (form, oldIrql) → point ≠ .storingOwner lock →
      word = if form = .acquire ∧ contended = false then address t ||| 1 else 1)
    (entered : (∀ other oldIrql, point ≠ .verifying other oldIrql) ∧
      ∀ other oldIrql, point ≠ .clearing other oldIrql) :
    Accounted address ((((s.store lock word).setContended lock contended).setTaken lock t how).goto t
      point) := by
  let after := (((s.store lock word).setContended lock contended).setTaken lock t how).goto t point
  have here : after.taken lock t = how := by
    simp [after, SpinState.goto, setTaken]
  have others : ∀ u, u ≠ t → after.taken lock u = none := fun u apart => by
    simpa [after, SpinState.goto, setTaken, setContended, store, apart] using sole u apart
  have elsewhere : ∀ other, other ≠ lock → after.taken other = s.taken other ∧
      after.lock other = s.lock other ∧ after.contended other = s.contended other := fun other apart => by
    simp [after, SpinState.goto, setTaken, setContended, store, apart]
  have written : after.lock lock = word ∧ after.contended lock = contended := by
    simp [after, SpinState.goto, setTaken, setContended, store]
  have self : after.point t = point := by simp [after, SpinState.goto]
  have rest : ∀ u, u ≠ t → after.point u = s.point u := fun u apart => by
    simp [after, SpinState.goto, setTaken, setContended, store, apart]
  have only : ∀ u, HoldsSpinLock after lock u → u = t := fun u holds => by
    by_contra apart
    simp [HoldsSpinLock, others u apart] at holds
  change Accounted address after
  constructor
  · intro other u v first second
    by_cases same : other = lock
    · subst same
      rw [only u first, only v second]
    · rw [HoldsSpinLock, (elsewhere other same).1] at first second
      exact held.one first second
  · intro other u named
    by_cases mine : u = t
    · subst mine
      obtain ⟨rfl, ⟨oldIrql, acquired⟩, one⟩ := storing other (self ▸ named)
      exact ⟨oldIrql, here.trans acquired, written.1.trans one⟩
    · obtain ⟨oldIrql, taken, value⟩ := held.storing (rest u mine ▸ named)
      have same : other ≠ lock := by
        rintro rfl
        simp [sole u mine] at taken
      obtain ⟨keepsTaken, keepsWord, -⟩ := elsewhere other same
      exact ⟨oldIrql, by rw [keepsTaken, taken], keepsWord.trans value⟩
  · intro other u form oldIrql taken away
    by_cases same : other = lock
    · subst same
      obtain rfl := only u (by simp [HoldsSpinLock, taken])
      rw [written.1, written.2]
      exact fits form oldIrql (here.symm.trans taken) (self ▸ away)
    · obtain ⟨keepsTaken, keepsWord, keepsContended⟩ := elsewhere other same
      rw [keepsWord, keepsContended]
      refine held.word (keepsTaken ▸ taken) fun named => ?_
      by_cases mine : u = t
      · subst mine
        exact left other same named
      · exact away ((rest u mine).trans named)
  · intro other u oldIrql verifying
    by_cases mine : u = t
    · subst mine
      exact absurd (self ▸ verifying) (entered.1 other oldIrql)
    · have holds := held.verifying (rest u mine ▸ verifying)
      have same : other ≠ lock := by
        rintro rfl
        simp [HoldsSpinLock, sole u mine] at holds
      rwa [HoldsSpinLock, (elsewhere other same).1]
  · intro other u oldIrql clearing
    by_cases mine : u = t
    · subst mine
      exact absurd (self ▸ clearing) (entered.2 other oldIrql)
    · have holds := held.clearing (rest u mine ▸ clearing)
      have same : other ≠ lock := by
        rintro rfl
        simp [HoldsSpinLock, sole u mine] at holds
      rwa [HoldsSpinLock, (elsewhere other same).1]

theorem takes {lock : Lock} (held : Accounted address s) (form : SpinForm) (oldIrql : Option (BitVec 8))
    (left : ∀ other, s.point t ≠ .storingOwner other) (zero : s.lock lock = 0) :
    Accounted address ((((s.store lock 1).setContended lock false).setTaken lock t
      (some (form, oldIrql))).goto t (if form = .acquire then .storingOwner lock else .outside)) := by
  refine held.rewrite (fun u _ => ?_) (fun other _ => left other) (fun other same => ?_)
    (fun form' oldIrql' same away => ?_) ⟨fun other irql => ?_, fun other irql => ?_⟩
  · cases taken : s.taken lock u with
    | none => rfl
    | some how => exact absurd zero (held.busy (holds_of_taken taken))
  · split at same
    · next plain => exact ⟨SpinPoint.storingOwner.inj same.symm, ⟨oldIrql, by rw [plain]⟩, rfl⟩
    · cases same
  · obtain ⟨rfl, rfl⟩ := Prod.mk.inj (some.inj same)
    split at away
    · exact absurd rfl away
    · next unowned => simp [unowned]
  · split <;> simp
  · split <;> simp

theorem stores {lock : Lock} (held : Accounted address s) (storing : s.point t = .storingOwner lock) :
    Accounted address (((s.store lock (address t ||| 1)).setContended lock false).goto t .outside) := by
  obtain ⟨oldIrql, taken, -⟩ := held.storing storing
  have same : (((s.store lock (address t ||| 1)).setContended lock false).setTaken lock t
      (s.taken lock t)) = (s.store lock (address t ||| 1)).setContended lock false := by
    simp [setTaken, setContended, store]
  rw [← same]
  refine held.rewrite (fun u apart => ?_) (fun other apart named => ?_) (by simp)
    (fun form irql how _ => ?_) (by simp)
  · exact held.others (holds_of_taken taken) apart
  · exact apart (SpinPoint.storingOwner.inj (storing.symm.trans named)).symm
  · rw [taken] at how
    obtain ⟨rfl, -⟩ := Prod.mk.inj (some.inj how)
    simp

theorem clears {lock : Lock} (held : Accounted address s) (clearing : s.point t = .clearing lock oldIrql) :
    Accounted address (((s.store lock 0).setTaken lock t none).lowerTo t oldIrql) := by
  have holds := held.clearing clearing
  have same : ((s.store lock 0).setContended lock (s.contended lock)).setTaken lock t none =
      (s.store lock 0).setTaken lock t none := by
    simp [setTaken, setContended, store]
  obtain ⟨point, lowered, passive, -⟩ := lowerTo_eq ((s.store lock 0).setTaken lock t none) t oldIrql
  rw [lowered, ← same]
  refine held.rewrite (fun u apart => ?_) (fun other _ named => ?_) (fun other named => ?_)
    (by simp) ⟨fun other irql named => ?_, fun other irql named => ?_⟩
  · exact held.others holds apart
  · rw [clearing] at named
    cases named
  all_goals
    subst named
    exact passive.elim

theorem exchanged {lock : Lock} (held : Accounted address s)
    (exchanging : s.point t = .exchanging lock form oldIrql) :
    Accounted address (exchangeWord s t lock form oldIrql) := by
  have left : ∀ other, s.point t ≠ .storingOwner other := by simp [exchanging]
  unfold exchangeWord
  by_cases zero : s.lock lock = 0
  · rw [if_pos zero]
    exact held.takes form oldIrql left zero
  · rw [if_neg zero]
    dsimp only
    split
    · obtain ⟨point, lowered, passive, -⟩ := lowerTo_eq ((s.store lock 1).setContended lock true) t oldIrql
      rw [lowered]
      exact (held.attempt lock).passive left passive
    · exact held.attempt lock

theorem advance (held : Accounted address s) (stepped : spinAdvance address s t = some s') :
    Accounted address s' := by
  unfold spinAdvance at stepped
  cases at_ : s.point t with
  | outside | stopped code =>
    rw [at_] at stepped
    cases stepped
  | comparing lock =>
    rw [at_] at stepped
    dsimp only at stepped
    split at stepped <;> cases stepped
    · exact held.passive (by simp [at_]) trivial
    · exact held.passive (by simp [at_]) trivial
  | raising lock form =>
    rw [at_] at stepped
    cases stepped
    exact (held.setIrql _).passive (by simp [at_]) trivial
  | exchanging lock form oldIrql =>
    rw [at_] at stepped
    cases stepped
    exact held.exchanged at_
  | storingOwner lock =>
    rw [at_] at stepped
    cases stepped
    exact held.stores at_
  | verifying lock oldIrql =>
    rw [at_] at stepped
    dsimp only at stepped
    split at stepped <;> cases stepped
    · exact held.passive (by simp [at_]) trivial
    · refine held.goto (by simp [at_]) (by simp) (by simp) fun other irql same => ?_
      obtain ⟨rfl, -⟩ := SpinPoint.clearing.inj same
      exact held.verifying at_
  | clearing lock oldIrql =>
    rw [at_] at stepped
    cases stepped
    exact held.clears at_
  | lowering newIrql =>
    rw [at_] at stepped
    dsimp only at stepped
    split at stepped <;> cases stepped
    · exact held.passive (by simp [at_]) trivial
    · exact (held.setIrql newIrql).passive (by simp [at_]) trivial

theorem step {action : SpinAction Thread Lock} (held : Accounted address s)
    (owned : ReleasesItsOwn s action) (stepped : spinStep address s action = some s') :
    Accounted address s' := by
  cases action with
  | advance t => exact held.advance stepped
  | setIrql irql =>
    cases stepped
    exact held.setIrql irql
  | take t lock form =>
    obtain ⟨outside, ⟨⟩⟩ := ite_none_right_eq_some.mp stepped
    exact held.passive (by simp [outside]) (by cases form <;> trivial)
  | release t lock oldIrql =>
    obtain ⟨outside, ⟨⟩⟩ := ite_none_right_eq_some.mp stepped
    refine held.goto (by simp [outside]) (by simp) (fun other irql same => ?_) (by simp)
    obtain ⟨rfl, -⟩ := SpinPoint.verifying.inj same
    exact owned
  | releaseFromDpcLevel t lock =>
    obtain ⟨outside, ⟨⟩⟩ := ite_none_right_eq_some.mp stepped
    refine held.goto (by simp [outside]) (by simp) (by simp) fun other irql same => ?_
    obtain ⟨rfl, -⟩ := SpinPoint.clearing.inj same
    exact owned

omit [DecidableEq Thread] [DecidableEq Lock] in
theorem verified {lock : Lock} (held : Accounted address s)
    (verifying : s.point t = .verifying lock oldIrql) :
    s.lock lock = address t ||| 1 ↔ SoleOwner address s lock t := by
  obtain ⟨⟨form, irql⟩, taken⟩ := isSome_iff_exists.mp (held.verifying verifying)
  rw [held.word taken (by simp [verifying]), SoleOwner, taken]
  by_cases named : form = .acquire ∧ s.contended lock = false
  · simp [named]
  · rw [if_neg named]
    constructor
    · exact fun same => .inr same.symm
    · rintro (⟨⟨irql', same⟩, quiet⟩ | same)
      · exact absurd ⟨(Prod.mk.inj (some.inj same)).1, quiet⟩ named
      · exact same.symm

end Accounted

def SpinLocksExclusive (s : SpinState Thread Lock) : Prop :=
  ∀ lock t u, HoldsSpinLock s lock t → HoldsSpinLock s lock u → t = u

/-- No release ended in the bugcheck of a lock that is not owned. -/
def ReleasesPassed (s : SpinState Thread Lock) : Prop := ∀ t, s.point t ≠ .stopped .spinlockIsNotOwned

/-- A check of `KsReleaseSpinLock` is made by a sole owner. -/
def VerifiesSoleOwner (address : Thread → BitVec 32) (s : SpinState Thread Lock) :
    SpinAction Thread Lock → Prop
  | .advance t => ∀ lock oldIrql, s.point t = .verifying lock oldIrql → SoleOwner address s lock t
  | _ => True

omit [DecidableEq Lock] in
theorem releasesPassed_goto {point : SpinPoint Lock} (left : s.point t ≠ .stopped .spinlockIsNotOwned)
    (moved : s'.point = Function.update s.point t point) :
    ReleasesPassed s' ↔ ReleasesPassed s ∧ point ≠ .stopped .spinlockIsNotOwned := by
  constructor
  · intro passed
    constructor
    · intro u
      by_cases same : u = t
      · exact same ▸ left
      · simpa [moved, same] using passed u
    · simpa [moved] using passed t
  · rintro ⟨passed, entered⟩ u
    by_cases same : u = t
    · simpa [moved, same] using entered
    · simpa [moved, same] using passed u

omit [DecidableEq Lock] in
theorem releasesPassed_of_passive {point : SpinPoint Lock} (at_ : s.point t = before)
    (left : before ≠ .stopped .spinlockIsNotOwned)
    (unverified : ∀ lock oldIrql, before ≠ .verifying lock oldIrql)
    (moved : s'.point = Function.update s.point t point) (entered : point ≠ .stopped .spinlockIsNotOwned) :
    ReleasesPassed s' ↔ ReleasesPassed s ∧ VerifiesSoleOwner address s (.advance t) := by
  rw [releasesPassed_goto (at_ ▸ left) moved]
  refine and_congr_right fun _ => ⟨fun _ lock oldIrql verifying => ?_, fun _ => entered⟩
  exact absurd (at_.symm.trans verifying) (unverified lock oldIrql)

theorem exchangeWord_point (s : SpinState Thread Lock) (t : Thread) (lock : Lock) (form : SpinForm)
    (oldIrql : Option (BitVec 8)) (exchanging : s.point t = .exchanging lock form oldIrql) :
    ∃ point, (exchangeWord s t lock form oldIrql).point = Function.update s.point t point ∧
      point ≠ .stopped .spinlockIsNotOwned := by
  unfold exchangeWord
  split
  · exact ⟨_, rfl, by split <;> simp⟩
  · dsimp only
    split
    · obtain ⟨point, lowered, -, entered⟩ := lowerTo_eq ((s.store lock 1).setContended lock true) t oldIrql
      exact ⟨point, by rw [lowered]; rfl, entered⟩
    · exact ⟨s.point t, by simp [store, setContended], by simp [exchanging]⟩

/-- A step keeps the releases passed exactly if it is no check by another than a sole owner. -/
theorem releasesPassed_step {action : SpinAction Thread Lock} (held : Accounted address s)
    (stepped : spinStep address s action = some s') :
    ReleasesPassed s' ↔ ReleasesPassed s ∧ VerifiesSoleOwner address s action := by
  cases action with
  | setIrql irql =>
    cases stepped
    simp [ReleasesPassed, VerifiesSoleOwner]
  | take t lock form =>
    obtain ⟨outside, ⟨⟩⟩ := ite_none_right_eq_some.mp stepped
    rw [releasesPassed_goto (by simp [outside]) rfl]
    cases form <;> simp [VerifiesSoleOwner, SpinForm.enter]
  | release t lock oldIrql | releaseFromDpcLevel t lock =>
    obtain ⟨outside, ⟨⟩⟩ := ite_none_right_eq_some.mp stepped
    rw [releasesPassed_goto (by simp [outside]) rfl]
    simp [VerifiesSoleOwner]
  | advance t =>
    change spinAdvance address s t = some s' at stepped
    unfold spinAdvance at stepped
    cases at_ : s.point t with
    | outside | stopped code =>
      rw [at_] at stepped
      cases stepped
    | comparing | lowering =>
      rw [at_] at stepped
      dsimp only at stepped
      split at stepped <;> cases stepped
      · exact releasesPassed_of_passive at_ (by simp) (by simp) rfl (by simp)
      · exact releasesPassed_of_passive at_ (by simp) (by simp) rfl (by simp)
    | raising lock form | storingOwner lock =>
      rw [at_] at stepped
      cases stepped
      exact releasesPassed_of_passive at_ (by simp) (by simp) rfl (by simp)
    | exchanging lock form oldIrql =>
      rw [at_] at stepped
      cases stepped
      obtain ⟨point, moved, entered⟩ := exchangeWord_point s t lock form oldIrql at_
      exact releasesPassed_of_passive at_ (by simp) (by simp) moved entered
    | verifying lock oldIrql =>
      have checks : VerifiesSoleOwner address s (.advance t) ↔ s.lock lock = address t ||| 1 := by
        rw [held.verified at_]
        constructor
        · exact fun all => all lock oldIrql at_
        · intro sole other irql same
          obtain ⟨rfl, -⟩ := SpinPoint.verifying.inj (at_.symm.trans same)
          exact sole
      rw [at_] at stepped
      dsimp only at stepped
      rw [checks]
      split at stepped <;> cases stepped
      · next differs =>
          rw [releasesPassed_goto (by simp [at_]) rfl]
          simp only [ne_eq, not_true_eq_false, and_false, false_iff, not_and]
          exact fun _ same => differs same.symm
      · next same =>
          rw [releasesPassed_goto (by simp [at_]) rfl]
          simp [(not_not.mp same).symm]
    | clearing lock oldIrql =>
      rw [at_] at stepped
      cases stepped
      obtain ⟨point, lowered, -, entered⟩ := lowerTo_eq ((s.store lock 0).setTaken lock t none) t oldIrql
      rw [lowered]
      exact releasesPassed_of_passive at_ (by simp) (by simp) rfl entered

/-- In every run where threads release what they took, a lock has one holder at
most, and no release ends in the bugcheck exactly if every check of a release
was made by a thread that alone had taken the lock and put itself into it. -/
theorem spin_lock_runs {actions : List (SpinAction Thread Lock)} {irql : BitVec 8}
    (owned : Along ReleasesItsOwn (spinStep address) (ksInitializeSpinlocks irql) actions)
    (run : exec (spinStep address) (ksInitializeSpinlocks irql) actions = some s) :
    SpinLocksExclusive s ∧
      (ReleasesPassed s ↔
        Along (VerifiesSoleOwner address) (spinStep address) (ksInitializeSpinlocks irql) actions) := by
  have start : Accounted address (ksInitializeSpinlocks irql : SpinState Thread Lock) :=
    .initialized address irql
  have held := exec_preserves (P := Accounted address) (fun held owned => held.step owned) start owned run
  refine ⟨fun lock t u => held.one, ?_⟩
  rw [exec_exact (P := Accounted address) (Q := ReleasesPassed) (fun held owned => held.step owned)
    (fun held _ => releasesPassed_step held) start owned run]
  simp [ReleasesPassed, ksInitializeSpinlocks]

def spinAddress (thread : Bool) : BitVec 32 := if thread then 0xc0102000 else 0xc0101000

/-- One thread acquires and releases a lock, then the other one tries for it. -/
def handover : List (SpinAction Bool Unit) :=
  [.take false () .acquire, .advance false, .advance false, .advance false, .advance false,
    .release false () 0, .advance false, .advance false, .advance false,
    .take true () .tryToAcquireAtDpcLevel, .advance true, .releaseFromDpcLevel true (), .advance true]

theorem spin_lock_runs_handover : ∃ s, exec (spinStep spinAddress) (ksInitializeSpinlocks 0) handover = some s ∧
    SpinLocksExclusive s ∧ (ReleasesPassed s ↔
      Along (VerifiesSoleOwner spinAddress) (spinStep spinAddress) (ksInitializeSpinlocks 0) handover) :=
  ⟨_, rfl, spin_lock_runs (by decide) rfl⟩

/-- A lock that was tried for cannot be released by `KsReleaseSpinLock`, and
neither can one that another thread has tried for in the meantime. -/
theorem release_stopped :
    (∃ s, exec (spinStep spinAddress) (ksInitializeSpinlocks 0)
        [.take false () .tryToAcquire, .advance false, .advance false, .release false () 0,
          .advance false] = some s ∧
      Along ReleasesItsOwn (spinStep spinAddress) (ksInitializeSpinlocks 0)
        [.take false () .tryToAcquire, .advance false, .advance false, .release false () 0,
          .advance false] ∧ ¬ ReleasesPassed s) ∧
    ∃ s, exec (spinStep spinAddress) (ksInitializeSpinlocks 0)
        [.take false () .acquire, .advance false, .advance false, .advance false, .advance false,
          .take true () .acquire, .advance true, .advance true, .advance true,
          .release false () 0, .advance false] = some s ∧
      Along ReleasesItsOwn (spinStep spinAddress) (ksInitializeSpinlocks 0)
        [.take false () .acquire, .advance false, .advance false, .advance false, .advance false,
          .take true () .acquire, .advance true, .advance true, .advance true,
          .release false () 0, .advance false] ∧ ¬ ReleasesPassed s := by
  refine ⟨⟨_, rfl, by decide, fun passed => ?_⟩, _, rfl, by decide, fun passed => ?_⟩
  · exact passed false rfl
  · exact passed false rfl

end VeaOS.Ks
