import VeaOS.Foundation.Census
import VeaOS.Foundation.Runs
import VeaOS.Ks.GuardedMutex

/-! Runs of a guarded mutex. Its word counts the waiters that are not being
woken, and its woken bit stands for the one wake that is on its way. -/
namespace VeaOS.Ks
open Transition Foundation BitVec Function GuardedPoint GuardedState

/-- The word for a number of waiters, a waiter being woken, and a free mutex. -/
def gmCount (waiters : Nat) (woken free : Bool) : BitVec 32 :=
  BitVec.ofNat 32 (4 * waiters + 2 * woken.toNat + free.toNat)

section Bits
variable {w i : Nat} {k l : Bool}

theorem gmCount_bit_zero : (gmCount w k l).getLsbD 0 = l := by
  rw [gmCount, getLsbD_ofNat, Nat.testBit_zero]
  cases l <;> simp only [Nat.zero_lt_succ, decide_true, Bool.true_and, decide_eq_true_eq,
    decide_eq_false_iff_not, Bool.toNat_true, Bool.toNat_false] <;> omega

theorem gmCount_bit_one : (gmCount w k l).getLsbD 1 = k := by
  have bound := l.toNat_le
  rw [gmCount, getLsbD_ofNat, Nat.testBit_succ, Nat.testBit_zero]
  cases k <;> simp only [show 0 + 1 < 32 by decide, decide_true, Bool.true_and, decide_eq_true_eq,
    decide_eq_false_iff_not, Bool.toNat_true, Bool.toNat_false] <;> omega

theorem gmCount_bit_more (below : i + 2 < 32) : (gmCount w k l).getLsbD (i + 2) = w.testBit i := by
  have bounds := And.intro k.toNat_le l.toNat_le
  rw [gmCount, getLsbD_ofNat, Nat.testBit_succ, Nat.testBit_succ, decide_eq_true below,
    Bool.true_and]
  congr 1
  omega

theorem eq_gmCount {word : BitVec 32} (lock : word.getLsbD 0 = l) (woken : word.getLsbD 1 = k)
    (waiters : ∀ i, i + 2 < 32 → word.getLsbD (i + 2) = w.testBit i) : word = gmCount w k l := by
  apply eq_of_getLsbD_eq
  rintro (_ | _ | i) below
  · exact lock.trans gmCount_bit_zero.symm
  · exact woken.trans gmCount_bit_one.symm
  · exact (waiters i below).trans (gmCount_bit_more below).symm

theorem gmCount_inj (small : w < 0x40000000) (small' : w' < 0x40000000)
    (same : gmCount w k l = gmCount w' k' l') : w = w' ∧ k = k' ∧ l = l' := by
  have free : l = l' := by rw [← gmCount_bit_zero (l := l), same, gmCount_bit_zero]
  have woken : k = k' := by rw [← gmCount_bit_one (k := k), same, gmCount_bit_one]
  subst free woken
  have bounds := And.intro k.toNat_le l.toNat_le
  have values := congrArg BitVec.toNat same
  simp only [gmCount, BitVec.toNat_ofNat] at values
  rw [Nat.mod_eq_of_lt (by omega), Nat.mod_eq_of_lt (by omega)] at values
  exact ⟨by omega, rfl, rfl⟩

theorem gmCount_and : gmCount w k l &&& gmCount w' k' l' = gmCount (w &&& w') (k && k') (l && l') := by
  apply eq_gmCount
  · rw [getLsbD_and, gmCount_bit_zero, gmCount_bit_zero]
  · rw [getLsbD_and, gmCount_bit_one, gmCount_bit_one]
  · intro i below
    rw [getLsbD_and, gmCount_bit_more below, gmCount_bit_more below, Nat.testBit_and]

theorem gmCount_xor : gmCount w k l ^^^ gmCount w' k' l' = gmCount (w ^^^ w') (k ^^ k') (l ^^ l') := by
  apply eq_gmCount
  · rw [getLsbD_xor, gmCount_bit_zero, gmCount_bit_zero]
  · rw [getLsbD_xor, gmCount_bit_one, gmCount_bit_one]
  · intro i below
    rw [getLsbD_xor, gmCount_bit_more below, gmCount_bit_more below, Nat.testBit_xor]

theorem gmCount_reset : gmCount w k l &&& ~~~gmLockBit = gmCount w k false := by
  have lock : gmLockBit = gmCount 0 false true := rfl
  apply eq_gmCount
  · rw [lock, getLsbD_and, getLsbD_not, gmCount_bit_zero, gmCount_bit_zero]
    exact Bool.and_false l
  · rw [lock, getLsbD_and, getLsbD_not, gmCount_bit_one, gmCount_bit_one]
    exact Bool.and_true k
  · intro i below
    rw [lock, getLsbD_and, getLsbD_not, gmCount_bit_more below, gmCount_bit_more below,
      Nat.zero_testBit, decide_eq_true below]
    exact Bool.and_true (w.testBit i)

theorem gmCount_and_lock : gmCount w k l &&& gmLockBit = gmCount 0 false l := by
  rw [show gmLockBit = gmCount 0 false true from rfl, gmCount_and, Nat.and_zero, Bool.and_false,
    Bool.and_true]

theorem gmCount_and_woken : gmCount w k l &&& gmLockWaiterWoken = gmCount 0 k false := by
  rw [show gmLockWaiterWoken = gmCount 0 true false from rfl, gmCount_and, Nat.and_zero, Bool.and_false,
    Bool.and_true]

theorem gmCount_xor_remove :
    gmCount w k true ^^^ bitsToRemove woken = gmCount w (k ^^ woken) false := by
  have bits : bitsToRemove woken = gmCount 0 woken true := by cases woken <;> rfl
  rw [bits, gmCount_xor, Nat.xor_zero, Bool.xor_self]

theorem gmCount_eq_zero (small : w < 0x40000000) :
    gmCount w k l = 0 ↔ w = 0 ∧ k = false ∧ l = false :=
  ⟨fun same => gmCount_inj small (Nat.zero_lt_succ _) same, by rintro ⟨rfl, rfl, rfl⟩; rfl⟩

end Bits

theorem gmCount_add_inc : gmCount w k l + gmLockWaiterInc = gmCount (w + 1) k l := by
  rw [show gmLockWaiterInc = BitVec.ofNat 32 4 from rfl, gmCount, ← BitVec.ofNat_add, gmCount]
  congr 1
  omega

theorem gmCount_add_lock : gmCount w k false + gmLockBit = gmCount w k true := by
  rw [show gmLockBit = BitVec.ofNat 32 1 from rfl, gmCount, ← BitVec.ofNat_add]
  rfl

theorem gmCount_add_woken : gmCount w true l + gmLockWaiterWoken = gmCount (w + 1) false l := by
  rw [show gmLockWaiterWoken = BitVec.ofNat 32 2 from rfl, gmCount, ← BitVec.ofNat_add, gmCount,
    Bool.toNat_true, Bool.toNat_false]
  congr 1
  omega

theorem gmCount_add_bits (left : woken = true → k = true) :
    gmCount w k l + bitsToAdd woken = gmCount (w + 1) (k ^^ woken) l := by
  cases woken with
  | true =>
    rw [left rfl]
    exact gmCount_add_woken
  | false =>
    rw [Bool.xor_false]
    exact gmCount_add_inc

theorem gmCount_wake :
    gmCount (w + 1) false true + gmLockWaiterWoken - gmLockWaiterInc = gmCount w true true := by
  have added : gmCount w false true + gmLockWaiterWoken = gmCount w true true := by
    rw [show gmLockWaiterWoken = BitVec.ofNat 32 2 from rfl, gmCount, ← BitVec.ofNat_add, gmCount,
      Bool.toNat_true, Bool.toNat_false]
  rw [← gmCount_add_inc, BitVec.add_assoc, BitVec.add_comm gmLockWaiterInc, ← BitVec.add_assoc,
    BitVec.add_sub_cancel, added]

namespace GuardedPoint

def holds : GuardedPoint → Bool
  | .acquired _ | .holding | .releasing _ => true
  | _ => false

def waits : GuardedPoint → Bool
  | .gating _ | .blocked _ => true
  | _ => false

def signals : GuardedPoint → Bool
  | .signalling _ => true
  | _ => false

/-- Woken, and not yet acquired or waiting again. -/
def awake : GuardedPoint → Bool
  | .fetching _ woken | .exchanging _ woken _ => woken
  | _ => false

def isBlocked : GuardedPoint → Bool
  | .blocked _ => true
  | _ => false

end GuardedPoint

variable {Thread : Type} [DecidableEq Thread]

namespace GuardedState
variable (σ : GuardedState Thread) (thread : Thread)

@[simp] theorem goto_point : (σ.goto thread p).point = update σ.point thread p := rfl
theorem goto_point_of_ne (other : t ≠ thread) : (σ.goto thread p).point t = σ.point t :=
  update_of_ne other ..
@[simp] theorem goto_mutex : (σ.goto thread p).mutex = σ.mutex := rfl

section Updates
omit [DecidableEq Thread]

@[simp] theorem setCount_count : (σ.setCount count).mutex.count = count := rfl
@[simp] theorem setCount_owner : (σ.setCount count).mutex.owner = σ.mutex.owner := rfl
@[simp] theorem setCount_gate : (σ.setCount count).mutex.gate = σ.mutex.gate := rfl
@[simp] theorem setCount_point : (σ.setCount count).point = σ.point := rfl
@[simp] theorem addContention_count : σ.addContention.mutex.count = σ.mutex.count := rfl
@[simp] theorem addContention_owner : σ.addContention.mutex.owner = σ.mutex.owner := rfl
@[simp] theorem addContention_gate : σ.addContention.mutex.gate = σ.mutex.gate := rfl
@[simp] theorem addContention_point : σ.addContention.point = σ.point := rfl
@[simp] theorem setGate_count : (σ.setGate gate).mutex.count = σ.mutex.count := rfl
@[simp] theorem setGate_owner : (σ.setGate gate).mutex.owner = σ.mutex.owner := rfl
@[simp] theorem setGate_gate : (σ.setGate gate).mutex.gate = gate := rfl
@[simp] theorem setGate_point : (σ.setGate gate).point = σ.point := rfl
@[simp] theorem clearOwner_count : σ.clearOwner.mutex.count = σ.mutex.count := rfl
@[simp] theorem clearOwner_owner : σ.clearOwner.mutex.owner = none := rfl
@[simp] theorem clearOwner_gate : σ.clearOwner.mutex.gate = σ.mutex.gate := rfl
@[simp] theorem clearOwner_point : σ.clearOwner.point = σ.point := rfl

end Updates

@[simp] theorem enterGuardedRegion_mutex : (σ.enterGuardedRegion thread form).mutex = σ.mutex := by
  cases form <;> rfl

@[simp] theorem enterGuardedRegion_point : (σ.enterGuardedRegion thread form).point = σ.point := by
  cases form <;> rfl

@[simp] theorem leaveGuardedRegion_mutex : (σ.leaveGuardedRegion thread form).mutex = σ.mutex := by
  cases form <;> rfl

@[simp] theorem leaveGuardedRegion_point : (σ.leaveGuardedRegion thread form).point = σ.point := by
  cases form <;> rfl

omit [DecidableEq Thread] in
@[simp] theorem storeOwner_count : (σ.storeOwner thread form).mutex.count = σ.mutex.count := by
  cases form <;> rfl

omit [DecidableEq Thread] in
@[simp] theorem storeOwner_owner : (σ.storeOwner thread form).mutex.owner = some thread := by
  cases form <;> rfl

omit [DecidableEq Thread] in
@[simp] theorem storeOwner_gate : (σ.storeOwner thread form).mutex.gate = σ.mutex.gate := by
  cases form <;> rfl

omit [DecidableEq Thread] in
@[simp] theorem storeOwner_point : (σ.storeOwner thread form).point = σ.point := by
  cases form <;> rfl

end GuardedState

/-- The word stands for the waiters, the wake on its way, and the holder. -/
structure Counted (σ : GuardedState Thread) (waiters : Nat) (woken free : Bool) : Prop where
  count : σ.mutex.count = gmCount waiters woken free
  wakes : census GuardedPoint.signals σ.point + σ.mutex.gate.signalState +
    census GuardedPoint.awake σ.point = woken.toNat
  holder : census GuardedPoint.holds σ.point + free.toNat = 1
  waiting : waiters + census GuardedPoint.signals σ.point + σ.mutex.gate.signalState =
    census GuardedPoint.waits σ.point

section Moves
variable [Finite Thread] {σ σ' : GuardedState Thread} {t : Thread} {p q : GuardedPoint}

theorem Counted.move (counted : Counted σ w k l) (before : σ.point t = p)
    (point : σ'.point = update σ.point t q) (count : σ'.mutex.count = gmCount w' k' l')
    (wakes : p.signals.toNat + p.awake.toNat + σ.mutex.gate.signalState + k'.toNat =
      q.signals.toNat + q.awake.toNat + σ'.mutex.gate.signalState + k.toNat)
    (holder : p.holds.toNat + l.toNat = q.holds.toNat + l'.toNat)
    (waiting : w' + q.signals.toNat + σ'.mutex.gate.signalState + p.waits.toNat =
      w + p.signals.toNat + σ.mutex.gate.signalState + q.waits.toNat) : Counted σ' w' k' l' := by
  obtain ⟨_, oldWakes, oldHolder, oldWaiting⟩ := counted
  subst before
  have signals := census_update signals σ.point t q
  have awake := census_update awake σ.point t q
  have holds := census_update holds σ.point t q
  have waits := census_update waits σ.point t q
  rw [← point] at signals awake holds waits
  constructor
  · exact count
  · omega
  · omega
  · omega

end Moves

/-- What the word, the owner, the gate and the threads have to do with each other. -/
structure Agreed (σ : GuardedState Thread) : Prop where
  counted : ∃ waiters woken free, Counted σ waiters woken free
  owner {t} : σ.mutex.owner = some t ↔ σ.point t = .holding
  listed {t} : t ∈ σ.mutex.gate.waitListHead ↔ (σ.point t).isBlocked = true
  once : σ.mutex.gate.waitListHead.Nodup
  gate : σ.mutex.gate.signalState ≠ 0 → σ.mutex.gate.waitListHead = []
  offered {t form oldValue} : σ.point t = .waking form oldValue →
    ∃ w < 0x20000000, oldValue = gmCount (w + 1) false true
  /-- A free mutex with waiters and no wake on its way has a release that is about to look. -/
  noticed {w} : w < 0x20000000 → σ.mutex.count = gmCount (w + 1) false true →
    ∃ t form, σ.point t = .waking form σ.mutex.count

section Steps
variable {σ σ' : GuardedState Thread} {t : Thread} {p q : GuardedPoint}

theorem Agreed.follow (agreed : Agreed σ) (before : σ.point t = p)
    (point : σ'.point = update σ.point t q) (counted : ∃ w k l, Counted σ' w k l)
    (owner : ∀ x, σ'.mutex.owner = some x ↔ σ'.point x = .holding)
    (listed : ∀ x, x ∈ σ'.mutex.gate.waitListHead ↔ (σ'.point x).isBlocked = true)
    (once : σ'.mutex.gate.waitListHead.Nodup)
    (gate : σ'.mutex.gate.signalState ≠ 0 → σ'.mutex.gate.waitListHead = [])
    (offered : ∀ form oldValue, q = .waking form oldValue →
      ∃ w < 0x20000000, oldValue = gmCount (w + 1) false true)
    (noticed : ∀ w < 0x20000000, σ'.mutex.count = gmCount (w + 1) false true →
      (∃ form, q = .waking form σ'.mutex.count) ∨
        σ'.mutex.count = σ.mutex.count ∧ ∀ form, p ≠ .waking form σ.mutex.count) : Agreed σ' := by
  subst before
  have self : σ'.point t = q := by rw [point, update_self]
  have other {x} (different : x ≠ t) : σ'.point x = σ.point x := by
    rw [point, update_of_ne different]
  constructor
  case counted => exact counted
  case owner => exact owner _
  case listed => exact listed _
  case once => exact once
  case gate => exact gate
  case offered =>
    intro x form oldValue waking
    by_cases same : x = t
    · exact offered form oldValue (by rw [← self, ← same, waking])
    · exact agreed.offered ((other same).symm.trans waking)
  case noticed =>
    intro w small free
    rcases noticed w small free with ⟨form, waking⟩ | ⟨unchanged, away⟩
    · exact ⟨t, form, self.trans waking⟩
    · obtain ⟨x, form, waking⟩ := agreed.noticed small (unchanged ▸ free)
      have different : x ≠ t := by
        rintro rfl
        exact away form waking
      exact ⟨x, form, by rw [other different, waking, unchanged]⟩

theorem Agreed.move (agreed : Agreed σ) (before : σ.point t = p)
    (point : σ'.point = update σ.point t q) (counted : ∃ w k l, Counted σ' w k l)
    (owner : σ'.mutex.owner = σ.mutex.owner)
    (list : σ'.mutex.gate.waitListHead = σ.mutex.gate.waitListHead)
    (gate : σ'.mutex.gate.signalState ≠ 0 → σ.mutex.gate.waitListHead = [])
    (holding : q = .holding ↔ p = .holding) (blocked : q.isBlocked = p.isBlocked)
    (offered : ∀ form oldValue, q = .waking form oldValue →
      ∃ w < 0x20000000, oldValue = gmCount (w + 1) false true)
    (noticed : ∀ w < 0x20000000, σ'.mutex.count = gmCount (w + 1) false true →
      (∃ form, q = .waking form σ'.mutex.count) ∨
        σ'.mutex.count = σ.mutex.count ∧ ∀ form, p ≠ .waking form σ.mutex.count) : Agreed σ' := by
  apply agreed.follow before point counted
  case owner =>
    intro x
    rw [owner, agreed.owner, point]
    by_cases same : x = t
    · rw [same, update_self, before, holding]
    · rw [update_of_ne same]
  case listed =>
    intro x
    rw [list, agreed.listed, point]
    by_cases same : x = t
    · rw [same, update_self, before, blocked]
    · rw [update_of_ne same]
  case once => exact list ▸ agreed.once
  case gate => exact list ▸ gate
  case offered => exact offered
  case noticed => exact noticed

omit [DecidableEq Thread] in
theorem Counted.small [Finite Thread] (room : Nat.card Thread ≤ 0x20000000)
    (counted : Counted σ w k l) : w ≤ 0x20000000 := by
  have bound : census waits σ.point ≤ Nat.card Thread := census_le
  have waiting := counted.waiting
  omega

theorem gmCount_ne (different : k ≠ k' ∨ l ≠ l') : gmCount w k l ≠ gmCount w' k' l' := by
  intro same
  rcases different with woken | free
  · exact woken (by rw [← gmCount_bit_one (k := k), same, gmCount_bit_one])
  · exact free (by rw [← gmCount_bit_zero (l := l), same, gmCount_bit_zero])

variable [Finite Thread]

/-- One thread moves, and at most the word changes. -/
structure Moved (σ σ' : GuardedState Thread) (t : Thread) (p q : GuardedPoint) : Prop where
  before : σ.point t = p
  point : σ'.point = Function.update σ.point t q
  gate : σ'.mutex.gate = σ.mutex.gate
  owner : σ'.mutex.owner = σ.mutex.owner
  holding : q = .holding ↔ p = .holding
  blocked : q.isBlocked = p.isBlocked

theorem Agreed.go (agreed : Agreed σ) (moved : Moved σ σ' t p q) (counted : Counted σ w k l)
    (count : σ'.mutex.count = gmCount w' k' l')
    (wakes : p.signals.toNat + p.awake.toNat + k'.toNat = q.signals.toNat + q.awake.toNat + k.toNat)
    (holder : p.holds.toNat + l.toNat = q.holds.toNat + l'.toNat)
    (waiting : w' + q.signals.toNat + p.waits.toNat = w + p.signals.toNat + q.waits.toNat)
    (offered : ∀ form oldValue, q = .waking form oldValue →
      ∃ w < 0x20000000, oldValue = gmCount (w + 1) false true)
    (noticed : ∀ w < 0x20000000, σ'.mutex.count = gmCount (w + 1) false true →
      (∃ form, q = .waking form σ'.mutex.count) ∨
        σ'.mutex.count = σ.mutex.count ∧ ∀ form, p ≠ .waking form σ.mutex.count) : Agreed σ' := by
  have gate := moved.gate
  apply agreed.move moved.before moved.point
  case counted =>
    refine ⟨w', k', l', counted.move moved.before moved.point count ?_ holder ?_⟩
    · rw [gate]
      omega
    · rw [gate]
      omega
  case owner => exact moved.owner
  case list => rw [gate]
  case gate => exact gate ▸ agreed.gate
  case holding => exact moved.holding
  case blocked => exact moved.blocked
  case offered => exact offered
  case noticed => exact noticed

theorem Agreed.goSame (agreed : Agreed σ) (moved : Moved σ σ' t p q)
    (count : σ'.mutex.count = σ.mutex.count) (awake : q.awake = p.awake) (holds : q.holds = p.holds)
    (signals : q.signals = p.signals) (waits : q.waits = p.waits)
    (wakingBefore : ∀ form oldValue, p ≠ .waking form oldValue)
    (wakingAfter : ∀ form oldValue, q ≠ .waking form oldValue) : Agreed σ' := by
  obtain ⟨w, k, l, counted⟩ := agreed.counted
  apply agreed.go moved counted (count.trans counted.count)
  case wakes => rw [awake, signals]
  case holder => rw [holds]
  case waiting => rw [signals, waits]
  case offered => exact fun form oldValue waking => absurd waking (wakingAfter form oldValue)
  case noticed => exact fun _ _ _ => Or.inr ⟨count, fun form => wakingBefore form σ.mutex.count⟩

theorem Agreed.acquire (agreed : Agreed σ) (stepped : guardedStep σ (.acquire t form) = some σ') :
    Agreed σ' := by
  obtain ⟨w, k, l, counted⟩ := agreed.counted
  simp only [guardedStep] at stepped
  split at stepped
  next outside =>
    simp only [interlockedBitTestAndReset, enterGuardedRegion_mutex, counted.count,
      gmCount_and_lock, gmCount_reset] at stepped
    cases l with
    | true =>
      obtain rfl := Option.some.inj stepped
      apply agreed.go (q := .acquired form) ⟨outside, by simp, by simp, by simp, by simp, rfl⟩ counted
        (show _ = gmCount w k false from rfl)
      case wakes => rfl
      case holder => rfl
      case waiting => rfl
      case offered => nofun
      case noticed => exact fun _ _ same => absurd same (gmCount_ne (Or.inr Bool.false_ne_true))
    | false =>
      obtain rfl := Option.some.inj stepped
      apply agreed.goSame (q := .fetching form false) ⟨outside, by simp, by simp, by simp, by simp, rfl⟩
      case count => exact counted.count.symm
      case wakingBefore => nofun
      case wakingAfter => nofun
      all_goals rfl
  next => cases stepped

omit [DecidableEq Thread] [Finite Thread] in
theorem Agreed.congr (agreed : Agreed σ) (mutex : σ'.mutex = σ.mutex) (point : σ'.point = σ.point) :
    Agreed σ' := by
  obtain ⟨⟨w, k, l, count, wakes, holder, waiting⟩, owner, listed, once, gate, offered, noticed⟩ := agreed
  rw [← mutex] at count wakes owner listed once gate noticed waiting
  rw [← point] at wakes holder waiting owner listed offered noticed
  exact ⟨⟨w, k, l, count, wakes, holder, waiting⟩, owner, listed, once, gate, offered, noticed⟩

theorem Agreed.tryToAcquire (agreed : Agreed σ) (stepped : guardedStep σ (.tryToAcquire t) = some σ') :
    Agreed σ' := by
  obtain ⟨w, k, l, counted⟩ := agreed.counted
  simp only [guardedStep] at stepped
  split at stepped
  next outside =>
    simp only [interlockedBitTestAndReset, enterGuardedRegion_mutex, counted.count,
      gmCount_and_lock, gmCount_reset] at stepped
    cases l with
    | true =>
      obtain rfl := Option.some.inj stepped
      apply agreed.go (q := .acquired .guarded) ⟨outside, by simp, by simp, by simp, by simp, rfl⟩ counted
        (show _ = gmCount w k false from rfl)
      case wakes => rfl
      case holder => rfl
      case waiting => rfl
      case offered => nofun
      case noticed => exact fun _ _ same => absurd same (gmCount_ne (Or.inr Bool.false_ne_true))
    | false =>
      obtain rfl := Option.some.inj stepped
      have unchanged : σ.mutex = { σ.mutex with count := gmCount w k false } := by
        rw [← counted.count]
      apply agreed.congr
      · rw [leaveGuardedRegion_mutex, setCount,
          enterGuardedRegion_mutex]
        exact unchanged.symm
      · rw [leaveGuardedRegion_point, setCount_point,
          enterGuardedRegion_point]
  next => cases stepped

theorem Agreed.fetch (agreed : Agreed σ) (stepped : guardedStep σ (.fetch t) = some σ') : Agreed σ' := by
  simp only [guardedStep] at stepped
  split at stepped
  next form woken fetching =>
    obtain rfl := Option.some.inj stepped
    apply agreed.goSame (q := .exchanging form woken σ.mutex.count)
      ⟨fetching, by simp, by simp, by simp, by simp, rfl⟩
    case wakingBefore => nofun
    case wakingAfter => nofun
    all_goals rfl
  next => cases stepped

omit [DecidableEq Thread] in
theorem Counted.woken_of_awake (counted : Counted σ w k l) (awake : (σ.point t).awake = true) :
    k = true := by
  have some := census_pos.mpr ⟨t, awake⟩
  have wakes := counted.wakes
  cases k with
  | true => rfl
  | false =>
    rw [Bool.toNat_false] at wakes
    omega

theorem Agreed.exchange (agreed : Agreed σ) (stepped : guardedStep σ (.exchange t) = some σ') :
    Agreed σ' := by
  obtain ⟨w, k, l, counted⟩ := agreed.counted
  simp only [guardedStep] at stepped
  split at stepped
  next form woken oldValue exchanging =>
    have left : woken = true → k = true := by
      rintro rfl
      exact counted.woken_of_awake (t := t) (by rw [exchanging]; rfl)
    simp only [interlockedCompareExchange] at stepped
    split at stepped
    next found =>
      subst found
      rw [counted.count, gmCount_and_lock] at stepped
      cases l with
      | true =>
        have unlocked : gmCount 0 false true ≠ 0 := by decide
        rw [if_neg unlocked, if_neg unlocked, gmCount_xor_remove] at stepped
        obtain rfl := Option.some.inj stepped
        apply agreed.go (q := .acquired form) ⟨exchanging, by simp, by simp, by simp, by simp, rfl⟩ counted
          (show _ = gmCount w (k ^^ woken) false from rfl)
        case wakes => cases woken <;> cases k <;> first | rfl | cases left rfl
        case holder => rfl
        case waiting => rfl
        case offered => nofun
        case noticed => exact fun _ _ same => absurd same (gmCount_ne (Or.inr Bool.false_ne_true))
      | false =>
        have locked : gmCount 0 false false = 0 := rfl
        rw [if_pos locked, if_pos locked, gmCount_add_bits left] at stepped
        obtain rfl := Option.some.inj stepped
        apply agreed.go (q := .gating form) ⟨exchanging, by simp, by simp, by simp, by simp, rfl⟩ counted
          (show _ = gmCount (w + 1) (k ^^ woken) false from rfl)
        case wakes => cases woken <;> cases k <;> first | rfl | cases left rfl
        case holder => rfl
        case waiting => rfl
        case offered => nofun
        case noticed => exact fun _ _ same => absurd same (gmCount_ne (Or.inr Bool.false_ne_true))
    next missed =>
      obtain rfl := Option.some.inj stepped
      apply agreed.goSame (q := .exchanging form woken σ.mutex.count)
        ⟨exchanging, by simp, by simp, by simp, by simp, rfl⟩
      case wakingBefore => nofun
      case wakingAfter => nofun
      all_goals rfl
  next => cases stepped

theorem Counted.consume (counted : Counted σ w k l) (form : GuardedForm) (before : σ.point t = p) (waits : p.waits = true)
    (notHolds : p.holds = false) (notSignals : p.signals = false) (notAwake : p.awake = false)
    (point : σ'.point = Function.update σ.point t (.fetching form true))
    (count : σ'.mutex.count = σ.mutex.count)
    (signal : σ.mutex.gate.signalState = σ'.mutex.gate.signalState + 1) : Counted σ' w k l := by
  apply counted.move before point (count.trans counted.count)
  · rw [notSignals, notAwake, signal]
    simp only [GuardedPoint.signals, GuardedPoint.awake, Bool.toNat_true, Bool.toNat_false]
    omega
  · rw [notHolds]
    rfl
  · rw [waits, notSignals, signal]
    simp only [GuardedPoint.signals, GuardedPoint.waits, Bool.toNat_true, Bool.toNat_false]
    omega

omit [DecidableEq Thread] [Finite Thread] in
theorem Counted.signal_le (counted : Counted σ w k l) : σ.mutex.gate.signalState ≤ 1 := by
  have wakes := counted.wakes
  have bound := k.toNat_le
  omega

theorem Agreed.waitForGate (agreed : Agreed σ) (stepped : guardedStep σ (.waitForGate t) = some σ') :
    Agreed σ' := by
  obtain ⟨w, k, l, counted⟩ := agreed.counted
  simp only [guardedStep] at stepped
  split at stepped
  next form gating =>
    rw [ksWaitForGate] at stepped
    split at stepped
    next signalled =>
      obtain rfl := Option.some.inj stepped
      have few := counted.signal_le
      apply agreed.move gating (q := .fetching form true) (by simp)
      case counted =>
        refine ⟨w, k, l, counted.consume form gating rfl rfl rfl rfl (by simp) (by simp) ?_⟩
        simp only [goto_mutex, setGate_gate]
        omega
      case owner => simp
      case list => simp
      case gate => exact fun _ => agreed.gate signalled
      case holding => simp
      case blocked => rfl
      case offered => nofun
      case noticed => exact fun _ _ _ => Or.inr ⟨rfl, nofun⟩
    next closed =>
      obtain rfl := Option.some.inj stepped
      have absent : t ∉ σ.mutex.gate.waitListHead := by
        rw [agreed.listed, gating]
        exact Bool.false_ne_true
      have other {x} (different : x ≠ t) :
          update σ.point t (.blocked form) x = σ.point x := update_of_ne different ..
      apply agreed.follow gating (q := .blocked form) (by simp)
      case counted =>
        exact ⟨w, k, l, counted.move gating (q := .blocked form) (by simp) counted.count rfl rfl rfl⟩
      case owner =>
        intro x
        refine agreed.owner.trans ?_
        by_cases same : x = t
        · simp [same, gating]
        · rw [goto_point, setGate_point, other same]
      case listed =>
        intro x
        simp only [goto_mutex, setGate_gate, goto_point,
          setGate_point, List.mem_append, List.mem_singleton]
        by_cases same : x = t
        · simp [same, isBlocked]
        · rw [other same, agreed.listed, or_iff_left same]
      case once =>
        exact List.nodup_append.mpr ⟨agreed.once, List.nodup_singleton t, by
          rintro x inside y only rfl
          exact absent (List.mem_singleton.mp only ▸ inside)⟩
      case gate => exact fun signalled => absurd signalled closed
      case offered => nofun
      case noticed => exact fun _ _ _ => Or.inr ⟨rfl, nofun⟩
  next => cases stepped

theorem Agreed.storeOwner (agreed : Agreed σ) (stepped : guardedStep σ (.storeOwner t) = some σ') :
    Agreed σ' := by
  obtain ⟨w, k, l, counted⟩ := agreed.counted
  simp only [guardedStep] at stepped
  split at stepped
  next form acquired =>
    obtain rfl := Option.some.inj stepped
    have sole {x} (holds : (σ.point x).holds = true) : x = t := by
      have few := counted.holder
      exact census_unique (by omega) holds (by rw [acquired]; rfl)
    have other {x} (different : x ≠ t) :
        update σ.point t .holding x = σ.point x := update_of_ne different ..
    apply agreed.follow acquired (q := .holding) (by simp)
    case counted =>
      exact ⟨w, k, l, counted.move acquired (q := .holding) (by simp) (by simp [counted.count])
        (by simp [signals, awake]) rfl
        (by simp [signals, waits])⟩
    case owner =>
      intro x
      simp only [goto_mutex, storeOwner_owner, goto_point,
        storeOwner_point, Option.some.injEq]
      constructor
      · rintro rfl
        rw [update_self]
      · intro holding
        by_cases same : x = t
        · exact same.symm
        · rw [other same] at holding
          exact (sole (by rw [holding]; rfl)).symm
    case listed =>
      intro x
      simp only [goto_mutex, storeOwner_gate, goto_point,
        storeOwner_point, agreed.listed]
      by_cases same : x = t
      · simp [same, acquired, isBlocked]
      · rw [other same]
    case once => simpa using agreed.once
    case gate => simpa using agreed.gate
    case offered => nofun
    case noticed => exact fun _ _ _ => Or.inr ⟨by simp, nofun⟩
  next => cases stepped

theorem Agreed.clearOwner (agreed : Agreed σ) (stepped : guardedStep σ (.clearOwner t form) = some σ') :
    Agreed σ' := by
  obtain ⟨w, k, l, counted⟩ := agreed.counted
  simp only [guardedStep] at stepped
  split at stepped
  next holding =>
    obtain rfl := Option.some.inj stepped
    have other {x} (different : x ≠ t) :
        update σ.point t (.releasing form) x = σ.point x := update_of_ne different ..
    apply agreed.follow holding (q := .releasing form) (by simp)
    case counted => exact ⟨w, k, l, counted.move holding (q := .releasing form) (by simp) counted.count rfl rfl rfl⟩
    case owner =>
      intro x
      simp only [goto_mutex, clearOwner_owner, goto_point,
        clearOwner_point]
      refine iff_of_false (by nofun) ?_
      by_cases same : x = t
      · rw [same, update_self]
        nofun
      · rw [other same]
        intro holds
        have owned := agreed.owner.mpr holding
        exact same (Option.some.inj ((agreed.owner.mpr holds).symm.trans owned))
    case listed =>
      intro x
      simp only [goto_mutex, clearOwner_gate, goto_point,
        clearOwner_point, agreed.listed]
      by_cases same : x = t
      · simp [same, holding, isBlocked]
      · rw [other same]
    case once => exact agreed.once
    case gate => exact agreed.gate
    case offered => nofun
    case noticed => exact fun _ _ _ => Or.inr ⟨rfl, nofun⟩
  next => cases stepped

theorem Agreed.exchangeAdd (room : Nat.card Thread ≤ 0x20000000) (agreed : Agreed σ)
    (stepped : guardedStep σ (.exchangeAdd t) = some σ') : Agreed σ' := by
  obtain ⟨w, k, l, counted⟩ := agreed.counted
  have small := counted.small room
  simp only [guardedStep] at stepped
  split at stepped
  next form releasing =>
    have locked : l = false := by
      have some := census_pos.mpr ⟨t, show (σ.point t).holds = true by rw [releasing]; rfl⟩
      have holder := counted.holder
      cases l with
      | false => rfl
      | true =>
        rw [Bool.toNat_true] at holder
        omega
    subst locked
    simp only [counted.count, gmCount_add_lock, gmCount_and_woken, ne_eq,
      gmCount_eq_zero (show w < 0x40000000 by omega), gmCount_eq_zero (Nat.zero_lt_succ _)] at stepped
    split at stepped
    next waiters =>
      obtain ⟨some, -, rfl, -⟩ := waiters
      have positive : w ≠ 0 := fun none => some ⟨none, rfl, trivial⟩
      obtain rfl := Option.some.inj stepped
      apply agreed.go (q := .waking form (gmCount w false true))
        ⟨releasing, by simp, by simp, by simp, by simp, rfl⟩ counted (show _ = gmCount w false true from rfl)
      case wakes => rfl
      case holder => rfl
      case waiting => rfl
      case offered =>
        rintro _ _ ⟨⟩
        exact ⟨w - 1, by omega, by rw [Nat.sub_one_add_one positive]⟩
      case noticed => exact fun _ _ _ => Or.inl ⟨form, rfl⟩
    next none =>
      obtain rfl := Option.some.inj stepped
      apply agreed.go (q := .outside) ⟨releasing, by simp, by simp, by simp, by simp, rfl⟩ counted
        (show _ = gmCount w k true by simp)
      case wakes => rfl
      case holder => rfl
      case waiting => rfl
      case offered => nofun
      case noticed =>
        intro w' small' same
        simp only [goto_mutex, leaveGuardedRegion_mutex,
          setCount_count] at same
        obtain ⟨rfl, rfl, -⟩ := gmCount_inj (by omega) (by omega) same
        exact absurd (by simp) none
  next => cases stepped

/-- A release of the guarded form finds its word unchanged, or finds zero. -/
def ReleaseUndisturbed (σ : GuardedState Thread) : GuardedAction Thread → Prop
  | .wake t => ∀ oldValue, σ.point t = .waking .guarded oldValue →
      σ.mutex.count = oldValue ∨ σ.mutex.count = 0
  | _ => True

theorem Agreed.wake (room : Nat.card Thread ≤ 0x20000000) (agreed : Agreed σ)
    (undisturbed : ReleaseUndisturbed σ (.wake t)) (stepped : guardedStep σ (.wake t) = some σ') :
    Agreed σ' := by
  obtain ⟨w, k, l, counted⟩ := agreed.counted
  have small := counted.small room
  simp only [guardedStep] at stepped
  split at stepped
  next form oldValue waking =>
    obtain ⟨w', small', rfl⟩ := agreed.offered waking
    by_cases found : σ.mutex.count = gmCount (w' + 1) false true
    · have same := counted.count.symm.trans found
      obtain ⟨rfl, rfl, rfl⟩ := gmCount_inj (by omega) (by omega) same
      have exchanged : releaseExchange form σ.mutex.count (gmCount (w' + 1) false true) =
          (true, gmCount w' true true) := by
        have nonzero : gmCount (w' + 1) false true ≠ gmCount 0 false false := gmCount_ne (Or.inr nofun)
        rw [releaseExchange, interlockedCompareExchange, found, if_pos rfl, gmCount_wake]
        cases form with
        | guarded => exact Prod.ext (decide_eq_true nonzero) rfl
        | bare => exact Prod.ext (decide_eq_true rfl) rfl
      rw [exchanged] at stepped
      obtain rfl := Option.some.inj stepped
      apply agreed.go (q := .signalling form) ⟨waking, by simp, by simp, by simp, by simp, rfl⟩ counted
        (show _ = gmCount w' true true from rfl)
      case wakes => rfl
      case holder => rfl
      case waiting => rfl
      case offered => nofun
      case noticed => exact fun _ _ same => absurd same (gmCount_ne (Or.inl nofun))
    · have exchanged : releaseExchange form σ.mutex.count (gmCount (w' + 1) false true) =
          (false, σ.mutex.count) := by
        rw [releaseExchange, interlockedCompareExchange, if_neg found]
        cases form with
        | guarded => simp [(undisturbed _ waking).resolve_left found]
        | bare => simp [found]
      rw [exchanged] at stepped
      obtain rfl := Option.some.inj stepped
      apply agreed.go (q := .outside) ⟨waking, by simp, by simp, by simp, by simp, rfl⟩ counted
        (show _ = gmCount w k l by simp [counted.count])
      case wakes => rfl
      case holder => rfl
      case waiting => rfl
      case offered => nofun
      case noticed =>
        refine fun _ _ _ => Or.inr ⟨by simp, ?_⟩
        rintro form' same
        injection same with _ unchanged
        exact found unchanged.symm
  next => cases stepped

theorem Counted.signalled (counted : Counted σ w k l) (signalling : σ.point t = .signalling form)
    (point : σ'.point = update σ.point t .outside) (count : σ'.mutex.count = σ.mutex.count)
    (signal : σ'.mutex.gate.signalState = 1) : Counted σ' w k l := by
  have some := census_pos.mpr ⟨t, show (σ.point t).signals = true by rw [signalling]; rfl⟩
  have wakes := counted.wakes
  have bound := k.toNat_le
  have closed : σ.mutex.gate.signalState = 0 := by omega
  apply counted.move signalling point (count.trans counted.count)
  · rw [signal, closed]
    rfl
  · rfl
  · rw [signal, closed]
    rfl

theorem Agreed.signalEmpty (agreed : Agreed σ) (signalling : σ.point t = .signalling form)
    (empty : σ.mutex.gate.waitListHead = []) :
    Agreed (((σ.setGate { σ.mutex.gate with signalState := 1 }).leaveGuardedRegion t form).goto t
      .outside) := by
  obtain ⟨w, k, l, counted⟩ := agreed.counted
  apply agreed.move signalling (q := .outside) (by simp)
  case counted => exact ⟨w, k, l, counted.signalled signalling (by simp) (by simp) (by simp)⟩
  case owner => simp
  case list => simp
  case gate => exact fun _ => empty
  case holding => exact iff_of_false nofun nofun
  case blocked => rfl
  case offered => nofun
  case noticed => exact fun _ _ _ => Or.inr ⟨by simp, nofun⟩

/-- The first blocked thread is woken: the wake goes by the gate to it. -/
theorem Agreed.signalBlocked (agreed : Agreed σ) (signalling : σ.point t = .signalling form)
    (list : σ.mutex.gate.waitListHead = u :: rest) (blocked : σ.point u = .blocked form') :
    Agreed ((((σ.setGate { σ.mutex.gate with waitListHead := rest }).goto u
      (.fetching form' true)).leaveGuardedRegion t form).goto t .outside) := by
  obtain ⟨w, k, l, counted⟩ := agreed.counted
  obtain ⟨absent, distinct⟩ := List.nodup_cons.mp (list ▸ agreed.once)
  have apart : u ≠ t := by
    rintro rfl
    rw [signalling] at blocked
    cases blocked
  have other {x} (notU : x ≠ u) (notT : x ≠ t) :
      update (update σ.point u (.fetching form' true)) t .outside x = σ.point x := by
    rw [update_of_ne notT, update_of_ne notU]
  have woken : update (update σ.point u (.fetching form' true)) t .outside u =
      .fetching form' true := by
    rw [update_of_ne apart, update_self]
  have closed : σ.mutex.gate.signalState = 0 := by
    by_contra signalled
    have empty := agreed.gate signalled
    rw [list] at empty
    cases empty
  have signalled : Counted ((σ.setGate { σ.mutex.gate with signalState := 1 }).goto t .outside) w k l :=
    counted.signalled signalling (by simp) (by simp) (by simp)
  constructor
  case counted =>
    refine ⟨w, k, l, signalled.consume form' (t := u) (p := .blocked form') ?_ rfl rfl rfl rfl ?_ ?_ ?_⟩
    · rw [goto_point, update_of_ne apart]
      exact blocked
    · simp only [goto_point, leaveGuardedRegion_point, setGate_point]
      exact update_comm apart ..
    · simp
    · simp [closed]
  case owner =>
    intro x
    simp only [goto_mutex, leaveGuardedRegion_mutex, goto_point,
      leaveGuardedRegion_point, setGate_point, setGate_owner,
      agreed.owner]
    by_cases isT : x = t
    · simp [isT, signalling]
    by_cases isU : x = u
    · rw [isU, woken, blocked]
      exact iff_of_false nofun nofun
    · rw [other isU isT]
  case listed =>
    intro x
    simp only [goto_mutex, leaveGuardedRegion_mutex, goto_point,
      leaveGuardedRegion_point, setGate_point, setGate_gate]
    have listed := agreed.listed (t := x)
    rw [list, List.mem_cons] at listed
    by_cases isT : x = t
    · rw [isT, update_self]
      rw [isT, signalling] at listed
      exact (or_iff_right (Ne.symm apart)).symm.trans listed
    by_cases isU : x = u
    · rw [isU, woken]
      exact iff_of_false absent nofun
    · rw [other isU isT]
      exact (or_iff_right isU).symm.trans listed
  case once => simpa using distinct
  case gate => exact fun signal => absurd closed (by simpa using signal)
  case offered =>
    intro x form oldValue waking
    simp only [goto_point, leaveGuardedRegion_point,
      setGate_point] at waking
    by_cases isT : x = t
    · rw [isT, update_self] at waking
      cases waking
    by_cases isU : x = u
    · rw [isU, woken] at waking
      cases waking
    · exact agreed.offered ((other isU isT).symm.trans waking)
  case noticed =>
    intro w small free
    simp only [goto_mutex, leaveGuardedRegion_mutex,
      setGate_count] at free ⊢
    obtain ⟨x, form, waking⟩ := agreed.noticed small free
    refine ⟨x, form, Eq.trans ?_ waking⟩
    simp only [goto_point, leaveGuardedRegion_point, setGate_point]
    apply other
    · rintro rfl
      rw [blocked] at waking
      cases waking
    · rintro rfl
      rw [signalling] at waking
      cases waking

theorem isBlocked_iff {point : GuardedPoint} : point.isBlocked = true ↔ ∃ form, point = .blocked form := by
  constructor
  · intro blocked
    cases point with
    | blocked form => exact ⟨form, rfl⟩
    | _ => cases blocked
  · rintro ⟨form, rfl⟩
    rfl

theorem Agreed.signalGate (agreed : Agreed σ) (stepped : guardedStep σ (.signalGate t) = some σ') :
    Agreed σ' := by
  simp only [guardedStep] at stepped
  split at stepped
  next form signalling =>
    obtain rfl := Option.some.inj stepped
    rw [ksSignalGate]
    split
    next u rest list =>
      have first : u ∈ σ.mutex.gate.waitListHead := list ▸ List.mem_cons_self
      obtain ⟨form', blocked⟩ := isBlocked_iff.mp (agreed.listed.mp first)
      rw [ptWakeThread, setGate_point, blocked]
      exact agreed.signalBlocked signalling list blocked
    next empty => exact agreed.signalEmpty signalling empty
  next => cases stepped

theorem Agreed.step (room : Nat.card Thread ≤ 0x20000000) (agreed : Agreed σ)
    (undisturbed : ReleaseUndisturbed σ action) (stepped : guardedStep σ action = some σ') : Agreed σ' := by
  cases action with
  | acquire t form => exact agreed.acquire stepped
  | tryToAcquire t => exact agreed.tryToAcquire stepped
  | fetch t => exact agreed.fetch stepped
  | exchange t => exact agreed.exchange stepped
  | waitForGate t => exact agreed.waitForGate stepped
  | storeOwner t => exact agreed.storeOwner stepped
  | clearOwner t form => exact agreed.clearOwner stepped
  | exchangeAdd t => exact agreed.exchangeAdd room stepped
  | wake t => exact agreed.wake room undisturbed stepped
  | signalGate t => exact agreed.signalGate stepped

end Steps

section Runs
variable [Finite Thread] {σ : GuardedState Thread} {t : Thread}

omit [DecidableEq Thread] [Finite Thread] in
theorem Agreed.gating_of_waits (agreed : Agreed σ) (waits : (σ.point t).waits = true)
    (empty : σ.mutex.gate.waitListHead = []) : ∃ form, σ.point t = .gating form := by
  cases at_ : σ.point t with
  | gating form => exact ⟨form, rfl⟩
  | blocked form =>
    have listed := agreed.listed.mpr (show (σ.point t).isBlocked = true by rw [at_]; rfl)
    rw [empty] at listed
    cases listed
  | _ => rw [at_] at waits; cases waits

/-- A waiter takes a signal of the gate: at once, or where it goes to wait. -/
def Consumed (σ : GuardedState Thread) (u : Thread) : Prop :=
  (σ.point u).awake = true ∨ σ.mutex.gate.signalState = 1 ∧
    ∃ σ', guardedStep σ (.waitForGate u) = some σ' ∧ (σ'.point u).awake = true

theorem Agreed.consumed (agreed : Agreed σ) (signalling : σ.point t = .signalling form) :
    ∃ σ', guardedStep σ (.signalGate t) = some σ' ∧ ∃ u, (σ.point u).waits = true ∧ Consumed σ' u := by
  simp only [guardedStep, signalling, ksSignalGate]
  refine ⟨_, rfl, ?_⟩
  split
  next u rest list =>
    have first : u ∈ σ.mutex.gate.waitListHead := list ▸ List.mem_cons_self
    obtain ⟨form', blocked⟩ := isBlocked_iff.mp (agreed.listed.mp first)
    have apart : u ≠ t := by
      rintro rfl
      rw [signalling] at blocked
      cases blocked
    refine ⟨u, by rw [blocked]; rfl, Or.inl ?_⟩
    simp only [ptWakeThread, setGate_point, blocked, goto_point,
      leaveGuardedRegion_point, update_of_ne apart, update_self]
    rfl
  next empty =>
    have later := agreed.signalEmpty signalling empty
    obtain ⟨w, k, l, counted⟩ := later.counted
    have waiting := counted.waiting
    have signal : (((σ.setGate { σ.mutex.gate with signalState := 1 }).leaveGuardedRegion t form).goto t
      .outside).mutex.gate.signalState = 1 := by simp
    obtain ⟨u, waits⟩ := census_pos.mp (show 0 < census waits _ by rw [← waiting]; omega)
    obtain ⟨form', gating⟩ := later.gating_of_waits waits (by simpa using empty)
    have apart : u ≠ t := by
      rintro rfl
      rw [goto_point, update_self] at gating
      cases gating
    have before : σ.point u = .gating form' := by
      simpa [update_of_ne apart] using gating
    refine ⟨u, by rw [before]; rfl, Or.inr ⟨signal, ?_⟩⟩
    simp only [guardedStep, gating, ksWaitForGate, signal]
    refine ⟨_, rfl, ?_⟩
    simp [awake]

theorem Agreed.woken (room : Nat.card Thread ≤ 0x20000000) (agreed : Agreed σ)
    (waking : σ.point t = .waking form σ.mutex.count) :
    ∃ σ₁ σ₂, guardedStep σ (.wake t) = some σ₁ ∧ guardedStep σ₁ (.signalGate t) = some σ₂ ∧
      ∃ u, (σ.point u).waits = true ∧ Consumed σ₂ u := by
  obtain ⟨w, _, count⟩ := agreed.offered waking
  have nonzero : σ.mutex.count ≠ 0 := by
    rw [count]
    exact (gmCount_ne (Or.inr nofun) : gmCount (w + 1) false true ≠ gmCount 0 false false)
  have stepped : guardedStep σ (.wake t) = some ((σ.setCount
      (σ.mutex.count + gmLockWaiterWoken - gmLockWaiterInc)).goto t (.signalling form)) := by
    simp only [guardedStep, waking, releaseExchange, interlockedCompareExchange, if_true]
    cases form with
    | guarded => exact if_pos (decide_eq_true nonzero)
    | bare => exact if_pos (decide_eq_true trivial)
  have undisturbed : ReleaseUndisturbed σ (.wake t) := by
    intro oldValue same
    rw [waking] at same
    injection same with _ unchanged
    exact Or.inl unchanged
  have next := agreed.step room undisturbed stepped
  have signalling : ((σ.setCount (σ.mutex.count + gmLockWaiterWoken - gmLockWaiterInc)).goto t
      (.signalling form)).point t = .signalling form := update_self ..
  obtain ⟨σ₂, signalled, u, waits, consumed⟩ := next.consumed signalling
  have apart : u ≠ t := by
    rintro rfl
    rw [goto_point, update_self] at waits
    cases waits
  rw [goto_point, setCount_point, update_of_ne apart] at waits
  exact ⟨_, σ₂, stepped, signalled, u, waits, consumed⟩

/-- What holds of a guarded mutex between the steps of its routines. -/
structure MutexKept (σ : GuardedState Thread) : Prop where
  exclusive {x y} : (σ.point x).holds = true → (σ.point y).holds = true → x = y
  owner {x} : σ.mutex.owner = some x ↔ σ.point x = .holding
  counted : ∃ waiters woken free, Counted σ waiters woken free
  listed {x} : x ∈ σ.mutex.gate.waitListHead ↔ (σ.point x).isBlocked = true
  /-- A free mutex with waiters and no wake on its way has a release that wakes one. -/
  noticed {u} : (∀ x, (σ.point x).holds = false ∧ (σ.point x).awake = false ∧
      (σ.point x).signals = false) → σ.mutex.gate.signalState = 0 → (σ.point u).waits = true →
    ∃ x form, σ.point x = .waking form σ.mutex.count
  woken {x form} : σ.point x = .waking form σ.mutex.count →
    ∃ σ₁ σ₂, guardedStep σ (.wake x) = some σ₁ ∧ guardedStep σ₁ (.signalGate x) = some σ₂ ∧
      ∃ u, (σ.point u).waits = true ∧ Consumed σ₂ u
  signalled {x form} : σ.point x = .signalling form →
    ∃ σ', guardedStep σ (.signalGate x) = some σ' ∧ ∃ u, (σ.point u).waits = true ∧ Consumed σ' u
  pending : σ.mutex.gate.signalState ≠ 0 → ∃ u, (σ.point u).waits = true ∧ Consumed σ u
  /-- No thread stays blocked when all others are outside. -/
  served : (∀ x, σ.point x = .outside ∨ (σ.point x).isBlocked = true) → ∀ x, σ.point x = .outside

theorem Agreed.kept (room : Nat.card Thread ≤ 0x20000000) (agreed : Agreed σ) : MutexKept σ := by
  obtain ⟨w, k, l, counted⟩ := agreed.counted
  have small := counted.small room
  have noticed {u} (still : ∀ t, (σ.point t).holds = false ∧ (σ.point t).awake = false ∧
      (σ.point t).signals = false) (closed : σ.mutex.gate.signalState = 0)
      (waits : (σ.point u).waits = true) : ∃ t form, σ.point t = .waking form σ.mutex.count := by
    have noHolder := census_eq_zero.mpr fun t => (still t).1
    have noAwake := census_eq_zero.mpr fun t => (still t).2.1
    have noSignal := census_eq_zero.mpr fun t => (still t).2.2
    have some := census_pos.mpr ⟨u, waits⟩
    have holder := counted.holder
    have wakes := counted.wakes
    have waiting := counted.waiting
    have free : l = true := Bool.toNat_eq_one.mp (by omega)
    have unwoken : k = false := Bool.toNat_eq_zero.mp (by omega)
    apply agreed.noticed (w := w - 1) (by omega)
    rw [counted.count, free, unwoken, Nat.sub_one_add_one (by omega)]
  constructor
  case exclusive =>
    intro s t first second
    have holder := counted.holder
    exact census_unique (by omega) first second
  case owner => exact agreed.owner
  case counted => exact ⟨w, k, l, counted⟩
  case listed => exact agreed.listed
  case noticed => exact noticed
  case woken => exact agreed.woken room
  case signalled => exact agreed.consumed
  case pending =>
    intro signal
    have waiting := counted.waiting
    have few := counted.signal_le
    obtain ⟨u, waits⟩ := census_pos.mp (show 0 < census waits σ.point by omega)
    obtain ⟨form, gating⟩ := agreed.gating_of_waits waits (agreed.gate signal)
    refine ⟨u, waits, Or.inr ⟨by omega, ?_⟩⟩
    simp only [guardedStep, gating, ksWaitForGate, if_pos signal]
    refine ⟨_, rfl, ?_⟩
    simp [awake]
  case served =>
    intro idle t
    rcases idle t with outside | blocked
    · exact outside
    exfalso
    have still (x) : (σ.point x).holds = false ∧ (σ.point x).awake = false ∧
        (σ.point x).signals = false := by
      rcases idle x with outside | blocked
      · rw [outside]
        exact ⟨rfl, rfl, rfl⟩
      · obtain ⟨form, blocked⟩ := isBlocked_iff.mp blocked
        rw [blocked]
        exact ⟨rfl, rfl, rfl⟩
    have listed := agreed.listed.mpr blocked
    have closed : σ.mutex.gate.signalState = 0 := by
      by_contra signal
      rw [agreed.gate signal] at listed
      cases listed
    have waits : (σ.point t).waits = true := by
      obtain ⟨form, blocked⟩ := isBlocked_iff.mp blocked
      rw [blocked]
      rfl
    obtain ⟨x, form, waking⟩ := noticed still closed waits
    rcases idle x with outside | blocked
    · rw [outside] at waking
      cases waking
    · rw [waking] at blocked
      cases blocked

end Runs

/-- A thread's record by its address, in units of eight bytes: no two lie in one. -/
abbrev PKThread := Fin 0x20000000

def GuardedState.start : GuardedState PKThread where
  mutex := ksInitializeGuardedMutex PKThread
  point := fun _ => .outside
  specialApcDisable := fun _ => 0

def GuardedStep (σ : GuardedState PKThread) (action : GuardedAction PKThread)
    (σ' : GuardedState PKThread) : Prop := guardedStep σ action = some σ'

theorem Agreed.start : Agreed GuardedState.start := by
  have nobody (kind : GuardedPoint → Bool) (none : kind .outside = false) :
      census kind GuardedState.start.point = 0 := census_eq_zero.mpr fun _ => none
  constructor
  case counted =>
    refine ⟨0, false, true, rfl, ?_, ?_, ?_⟩
    · rw [nobody _ rfl, nobody _ rfl]
      rfl
    · rw [nobody _ rfl]
      rfl
    · rw [nobody _ rfl, nobody _ rfl]
      rfl
  case owner => exact iff_of_false nofun nofun
  case listed => exact iff_of_false List.not_mem_nil nofun
  case once => exact List.nodup_nil
  case gate => exact fun _ => rfl
  case offered => nofun
  case noticed =>
    intro w small same
    have word : gmCount 0 false true = gmCount (w + 1) false true := same
    exact absurd (gmCount_inj (by omega) (by omega) word).1 (Nat.succ_ne_zero w).symm

theorem guarded_mutex_runs {actions : List (GuardedAction PKThread)} {σ : GuardedState PKThread}
    (run : Run (Guarded ReleaseUndisturbed GuardedStep) .start actions σ) : MutexKept σ := by
  have room : Nat.card PKThread ≤ 0x20000000 := by rw [Nat.card_eq_fintype_card, Fintype.card_fin]
  have agreed : Agreed σ := by
    apply run.invariant (P := Agreed)
    · rintro s action t agreed ⟨undisturbed, stepped⟩
      exact agreed.step room undisturbed stepped
    · exact .start
  exact agreed.kept room

/-- A thread blocks on a mutex that another holds, which then releases it. -/
theorem guarded_mutex_runs_contended :
    ∃ σ : GuardedState PKThread, σ.point 1 = .fetching .guarded true ∧ MutexKept σ := by
  have run : Run (Guarded ReleaseUndisturbed GuardedStep) .start
      [.acquire 0 .guarded, .storeOwner 0, .acquire 1 .guarded, .fetch 1, .exchange 1, .waitForGate 1,
        .clearOwner 0 .guarded, .exchangeAdd 0, .wake 0, .signalGate 0] _ :=
    .next ⟨trivial, rfl⟩ <| .next ⟨trivial, rfl⟩ <| .next ⟨trivial, rfl⟩ <| .next ⟨trivial, rfl⟩ <|
    .next ⟨trivial, rfl⟩ <| .next ⟨trivial, rfl⟩ <| .next ⟨trivial, rfl⟩ <| .next ⟨trivial, rfl⟩ <|
    .next ⟨fun old (same : waking .guarded 5 = .waking .guarded old) =>
      Or.inl (waking.inj same).2, rfl⟩ <|
    .next ⟨trivial, rfl⟩ <| .refl _
  exact ⟨_, rfl, guarded_mutex_runs run⟩

def GuardedAction.thread : GuardedAction Thread → Thread
  | .acquire t _ | .tryToAcquire t | .fetch t | .exchange t | .waitForGate t | .storeOwner t
  | .clearOwner t _ | .exchangeAdd t | .wake t | .signalGate t => t

theorem outside_stays {σ σ' : GuardedState Thread} (outside : σ.point t = .outside)
    (stepped : guardedStep σ action = some σ') (other : t ≠ action.thread) :
    σ'.point t = .outside := by
  cases action with
  | signalGate s =>
    simp only [guardedStep] at stepped
    split at stepped
    next form signalling =>
      obtain rfl := Option.some.inj stepped
      have apart : t ≠ s := other
      rw [goto_point, update_of_ne apart, leaveGuardedRegion_point,
        ksSignalGate]
      split
      next u rest list =>
        rw [ptWakeThread]
        split
        next form' blocked =>
          have notBlocked : t ≠ u := by
            rintro rfl
            rw [setGate_point, outside] at blocked
            cases blocked
          rw [goto_point, update_of_ne notBlocked]
          exact outside
        next => exact outside
      next => exact outside
    next => cases stepped
  | waitForGate s =>
    simp only [guardedStep, ksWaitForGate] at stepped
    have apart : t ≠ s := other
    split at stepped
    next =>
      split at stepped <;> obtain rfl := Option.some.inj stepped
      · simpa [update_of_ne apart] using outside
      · simpa [update_of_ne apart] using outside
    next => cases stepped
  | _ s =>
    simp only [guardedStep] at stepped
    have apart : t ≠ s := other
    split at stepped
    next =>
      grind [goto_point_of_ne, setCount_point,
        addContention_point, enterGuardedRegion_point,
        leaveGuardedRegion_point, storeOwner_point,
        clearOwner_point]
    next => cases stepped

theorem outside_run {σ σ' : GuardedState PKThread} (run : Run GuardedStep σ actions σ')
    (outside : σ.point t = .outside) (others : ∀ action ∈ actions, t ≠ action.thread) :
    σ'.point t = .outside := by
  induction run with
  | refl => exact outside
  | next head tail ih =>
    apply ih
    · exact outside_stays outside head (others _ List.mem_cons_self)
    · exact fun action member => others action (List.mem_cons_of_mem _ member)

/-- Thread 2 takes the mutex between the two steps of a release, which wakes
thread 1 all the same: it blocks again, and no release wakes it any more. -/
theorem blocked_for_good :
    ∃ σ : GuardedState PKThread, Run GuardedStep .start
      [.acquire 0 .guarded, .storeOwner 0, .acquire 1 .guarded, .fetch 1, .exchange 1, .waitForGate 1,
        .clearOwner 0 .guarded, .exchangeAdd 0, .acquire 2 .guarded, .storeOwner 2, .wake 0, .signalGate 0,
        .fetch 1, .exchange 1, .waitForGate 1, .clearOwner 2 .guarded, .exchangeAdd 2] σ ∧
      σ.mutex.owner = none ∧ σ.point 1 = .blocked .guarded ∧ ∀ t, t ≠ 1 → σ.point t = .outside := by
  have run : Run GuardedStep .start
      [.acquire 0 .guarded, .storeOwner 0, .acquire 1 .guarded, .fetch 1, .exchange 1, .waitForGate 1,
        .clearOwner 0 .guarded, .exchangeAdd 0, .acquire 2 .guarded, .storeOwner 2, .wake 0, .signalGate 0,
        .fetch 1, .exchange 1, .waitForGate 1, .clearOwner 2 .guarded, .exchangeAdd 2] _ :=
    .next rfl <| .next rfl <| .next rfl <| .next rfl <| .next rfl <| .next rfl <| .next rfl <|
    .next rfl <| .next rfl <| .next rfl <| .next rfl <| .next rfl <| .next rfl <| .next rfl <|
    .next rfl <| .next rfl <| .next rfl <| .refl _
  refine ⟨_, run, rfl, rfl, ?_⟩
  intro t other
  by_cases zero : t = 0
  · rw [zero]
    rfl
  by_cases two : t = 2
  · rw [two]
    rfl
  · apply outside_run run
    · rfl
    · simp [GuardedAction.thread, other, zero, two]

end VeaOS.Ks
