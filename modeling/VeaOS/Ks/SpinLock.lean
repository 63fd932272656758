import Mathlib.Data.BitVec
import VeaOS.Foundation.Runs

/-! Spin locks. The word of a lock is exchanged for one by every routine that
takes it; the plain form then stores the thread in it, and the plain release
checks that word. Each access to a word is a step of its own. -/
namespace VeaOS.Ks
open Transition

def dispatchLevel : BitVec 8 := 2

inductive SpinBugCheck where
  | spinlockIsAlreadyOwned
  | spinlockIsNotOwned
  | irqlNotGreaterOrEqual
  deriving DecidableEq

inductive SpinForm where
  | acquire
  | tryToAcquire
  | acquireAtDpcLevel
  | tryToAcquireAtDpcLevel
  deriving DecidableEq

/-- Where a thread is in the routines of the locks, by what it does next. -/
inductive SpinPoint (Lock : Type) where
  | outside
  /-- `KsAcquireSpinLock` compares the word with that of its own thread. -/
  | comparing (lock : Lock)
  | raising (lock : Lock) (form : SpinForm)
  | exchanging (lock : Lock) (form : SpinForm) (oldIrql : Option (BitVec 8))
  | storingOwner (lock : Lock)
  /-- `KsReleaseSpinLock` compares the word with that of its own thread. -/
  | verifying (lock : Lock) (oldIrql : BitVec 8)
  | clearing (lock : Lock) (oldIrql : Option (BitVec 8))
  | lowering (newIrql : BitVec 8)
  | stopped (code : SpinBugCheck)
  deriving DecidableEq

/-- The last two components only record what happened: the locks a thread has
taken, by which routine and with which old level, and the locks whose word was
exchanged in vain since it was last written. -/
structure SpinState (Thread Lock : Type) where
  lock : Lock → BitVec 32
  kiCurrentIrql : BitVec 8
  point : Thread → SpinPoint Lock
  taken : Lock → Thread → Option (SpinForm × Option (BitVec 8))
  contended : Lock → Bool

inductive SpinAction (Thread Lock : Type) where
  | take (thread : Thread) (lock : Lock) (form : SpinForm)
  /-- `KsReleaseSpinLock` -/
  | release (thread : Thread) (lock : Lock) (oldIrql : BitVec 8)
  | releaseFromDpcLevel (thread : Thread) (lock : Lock)
  | advance (thread : Thread)
  /-- The rest of the kernel changes the level. -/
  | setIrql (irql : BitVec 8)

variable {Thread Lock : Type} [DecidableEq Thread] [DecidableEq Lock]

namespace SpinState
variable (s : SpinState Thread Lock)

def goto (thread : Thread) (point : SpinPoint Lock) : SpinState Thread Lock :=
  { s with point := Function.update s.point thread point }

def store (lock : Lock) (value : BitVec 32) : SpinState Thread Lock :=
  { s with lock := Function.update s.lock lock value }

def setContended (lock : Lock) (contended : Bool) : SpinState Thread Lock :=
  { s with contended := Function.update s.contended lock contended }

def setTaken (lock : Lock) (thread : Thread) (how : Option (SpinForm × Option (BitVec 8))) :
    SpinState Thread Lock :=
  { s with taken := Function.update s.taken lock (Function.update (s.taken lock) thread how) }

/-- Lowers the level to the old one if that was below dispatch level. -/
def lowerTo (thread : Thread) : Option (BitVec 8) → SpinState Thread Lock
  | some oldIrql => if oldIrql < dispatchLevel then s.goto thread (.lowering oldIrql) else s.goto thread .outside
  | none => s.goto thread .outside

end SpinState

def ksInitializeSpinlocks (irql : BitVec 8) : SpinState Thread Lock where
  lock _ := 0
  kiCurrentIrql := irql
  point _ := .outside
  taken _ _ := none
  contended _ := false

/-- Whether the routine leaves after one exchange. -/
def SpinForm.tries : SpinForm → Bool
  | .tryToAcquire | .tryToAcquireAtDpcLevel => true
  | .acquire | .acquireAtDpcLevel => false

def SpinForm.enter (lock : Lock) : SpinForm → SpinPoint Lock
  | .acquire => .comparing lock
  | .tryToAcquire => .raising lock .tryToAcquire
  | .acquireAtDpcLevel => .exchanging lock .acquireAtDpcLevel none
  | .tryToAcquireAtDpcLevel => .exchanging lock .tryToAcquireAtDpcLevel none

/-- The exchange of the word for one. Only `KsAcquireSpinLock` goes on to store
the thread; a failed attempt spins, or goes back to the level it came from. -/
def exchangeWord (s : SpinState Thread Lock) (thread : Thread) (lock : Lock) (form : SpinForm)
    (oldIrql : Option (BitVec 8)) : SpinState Thread Lock :=
  if s.lock lock = 0 then
    (((s.store lock 1).setContended lock false).setTaken lock thread (some (form, oldIrql))).goto thread
      (if form = .acquire then .storingOwner lock else .outside)
  else
    let s := (s.store lock 1).setContended lock true
    if form.tries then s.lowerTo thread oldIrql else s

/-- The next access of a thread; `address` gives the current thread of each. -/
def spinAdvance (address : Thread → BitVec 32) (s : SpinState Thread Lock) (thread : Thread) :
    Option (SpinState Thread Lock) :=
  match s.point thread with
  | .outside | .stopped _ => none
  | .comparing lock =>
    if address thread ||| 1 = s.lock lock then some (s.goto thread (.stopped .spinlockIsAlreadyOwned))
    else some (s.goto thread (.raising lock .acquire))
  | .raising lock form =>
    some ({ s with kiCurrentIrql := if s.kiCurrentIrql < dispatchLevel then dispatchLevel
              else s.kiCurrentIrql }.goto thread (.exchanging lock form (some s.kiCurrentIrql)))
  | .exchanging lock form oldIrql => some (exchangeWord s thread lock form oldIrql)
  | .storingOwner lock =>
    some (((s.store lock (address thread ||| 1)).setContended lock false).goto thread .outside)
  | .verifying lock oldIrql =>
    if address thread ||| 1 ≠ s.lock lock then some (s.goto thread (.stopped .spinlockIsNotOwned))
    else some (s.goto thread (.clearing lock (some oldIrql)))
  | .clearing lock oldIrql => some (((s.store lock 0).setTaken lock thread none).lowerTo thread oldIrql)
  | .lowering newIrql =>
    if newIrql > s.kiCurrentIrql then some (s.goto thread (.stopped .irqlNotGreaterOrEqual))
    else some ({ s with kiCurrentIrql := newIrql }.goto thread .outside)

def spinStep (address : Thread → BitVec 32) (s : SpinState Thread Lock) :
    SpinAction Thread Lock → Option (SpinState Thread Lock)
  | .take thread lock form =>
    if s.point thread = .outside then some (s.goto thread (form.enter lock)) else none
  | .release thread lock oldIrql =>
    if s.point thread = .outside then some (s.goto thread (.verifying lock oldIrql)) else none
  | .releaseFromDpcLevel thread lock =>
    if s.point thread = .outside then some (s.goto thread (.clearing lock none)) else none
  | .advance thread => spinAdvance address s thread
  | .setIrql irql => some { s with kiCurrentIrql := irql }

/-- A thread took the lock and has not cleared its word yet. -/
def HoldsSpinLock (s : SpinState Thread Lock) (lock : Lock) (thread : Thread) : Prop :=
  (s.taken lock thread).isSome

/-- A thread releases only a lock that it took. -/
def ReleasesItsOwn (s : SpinState Thread Lock) : SpinAction Thread Lock → Prop
  | .release thread lock _ | .releaseFromDpcLevel thread lock => HoldsSpinLock s lock thread
  | _ => True

instance (s : SpinState Thread Lock) (action : SpinAction Thread Lock) : Decidable (ReleasesItsOwn s action) :=
  match action with
  | .release thread lock _ | .releaseFromDpcLevel thread lock =>
    inferInstanceAs (Decidable (s.taken lock thread).isSome)
  | .take _ _ _ | .advance _ | .setIrql _ => isTrue trivial

/-- The lock was taken by `KsAcquireSpinLock` and its word was not exchanged since
it was written; or there is no current thread yet. -/
def SoleOwner (address : Thread → BitVec 32) (s : SpinState Thread Lock) (lock : Lock)
    (thread : Thread) : Prop :=
  ((∃ oldIrql, s.taken lock thread = some (.acquire, oldIrql)) ∧ s.contended lock = false) ∨
    address thread ||| 1 = 1

end VeaOS.Ks
