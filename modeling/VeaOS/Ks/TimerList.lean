import Mathlib.Data.BitVec

/-! The timer queue: one list of armed timers in the order of their due times,
from whose head the clock takes the timers that are due. -/
namespace VeaOS.Ks

/-- The due time is a `LARGE_INTEGER`, whose `QuadPart` is signed. -/
structure KTimer (Dpc : Type) where
  dueTime : BitVec 64
  period : BitVec 32
  dpc : Option Dpc
  active : Bool

structure TimerQueue (Timer Dpc : Type) where
  timer : Timer → KTimer Dpc
  ksTimerListHead : List Timer
  ksSystemTime : BitVec 64

/-- A timer that was signalled, with the deferred call that was queued for it. -/
structure Expiration (Timer Dpc : Type) where
  timer : Timer
  dpc : Option Dpc

variable {Timer Dpc : Type} [DecidableEq Timer]

namespace TimerQueue

def setTimer (σ : TimerQueue Timer Dpc) (timer : Timer) (record : KTimer Dpc) :
    TimerQueue Timer Dpc :=
  { σ with timer := Function.update σ.timer timer record }

def removeEntryList (σ : TimerQueue Timer Dpc) (timer : Timer) : TimerQueue Timer Dpc :=
  { σ with ksTimerListHead := σ.ksTimerListHead.erase timer }

end TimerQueue

open TimerQueue (setTimer removeEntryList)

def ksInitializeTimers : TimerQueue Timer Dpc :=
  ⟨fun _ => ⟨0, 0, none, false⟩, [], 0⟩

omit [DecidableEq Timer] in
/-- The timer goes before the first one that is due later, as signed times. -/
def ksiInsertTimerSorted (σ : TimerQueue Timer Dpc) (timer : Timer) : TimerQueue Timer Dpc :=
  { σ with
    ksTimerListHead := σ.ksTimerListHead.orderedInsert
      (fun timer existing => (σ.timer timer).dueTime.slt (σ.timer existing).dueTime) timer }

/-- The queue afterwards, and whether the timer was armed before. -/
def ksSetTimer (σ : TimerQueue Timer Dpc) (timer : Timer) (dueTime : BitVec 64) (period : BitVec 32)
    (dpc : Option Dpc) : TimerQueue Timer Dpc × Bool :=
  let wasActive := (σ.timer timer).active
  let σ := if wasActive then σ.removeEntryList timer else σ
  let currentSystemTime := σ.ksSystemTime
  let dueTime := if dueTime.slt 0 then currentSystemTime - dueTime else dueTime
  let σ := σ.setTimer timer ⟨dueTime, period, dpc, true⟩
  (ksiInsertTimerSorted σ timer, wasActive)

def ksCancelTimer (σ : TimerQueue Timer Dpc) (timer : Timer) : TimerQueue Timer Dpc × Bool :=
  let wasActive := (σ.timer timer).active
  if wasActive then
    ((σ.removeEntryList timer).setTimer timer { σ.timer timer with active := false }, wasActive)
  else (σ, wasActive)

/-- One pass of the loop below, over a timer that is due: it is taken off the
list, signalled, and armed again if it is periodic. -/
def expireEntry (currentSystemTime : BitVec 64) (σ : TimerQueue Timer Dpc) (timer : Timer) :
    TimerQueue Timer Dpc :=
  let record := σ.timer timer
  let σ := (σ.removeEntryList timer).setTimer timer { record with active := false }
  if (0 : BitVec 32).slt record.period then
    ksiInsertTimerSorted (σ.setTimer timer
      { record with
        dueTime := currentSystemTime + record.period.signExtend 64 * 10000
        active := true }) timer
  else σ

/-- The due time is compared as an unsigned one here, since the current time is. -/
def ksiCheckTimerExpiration (currentSystemTime : BitVec 64) :
    Nat → TimerQueue Timer Dpc → Option (TimerQueue Timer Dpc × List (Expiration Timer Dpc))
  | 0, _ => none
  | fuel + 1, σ =>
    match σ.ksTimerListHead with
    | [] => some (σ, [])
    | timer :: _ =>
      if currentSystemTime < (σ.timer timer).dueTime then some (σ, [])
      else
        (ksiCheckTimerExpiration currentSystemTime fuel
          (expireEntry currentSystemTime σ timer)).map fun rest =>
            (rest.1, ⟨timer, (σ.timer timer).dpc⟩ :: rest.2)

def ksiAdvanceSystemTime (σ : TimerQueue Timer Dpc) (increment : BitVec 32) : TimerQueue Timer Dpc :=
  { σ with ksSystemTime := σ.ksSystemTime + increment.setWidth 64 }

inductive TimerAction (Timer Dpc : Type) where
  | advance (increment : BitVec 32)
  | set (timer : Timer) (dueTime : BitVec 64) (period : BitVec 32) (dpc : Option Dpc)
  | cancel (timer : Timer)
  | check (currentSystemTime : BitVec 64)

end VeaOS.Ks
