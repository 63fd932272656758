import Mathlib.Data.List.Nodup

/-! Deferred procedure calls on one processor. Interrupts insert and remove
calls between any two steps of the dispatch interrupt, which retires them. -/
namespace VeaOS.Ks

inductive KDpcImportance where
  | low
  | medium
  | high
  | mediumHigh
  deriving DecidableEq, Repr

/-- `dpcData` says whether `DpcData` points to the processor's block or is `NULL`. -/
structure KDpc (Arg : Type) where
  importance : KDpcImportance
  systemArgument1 : Arg
  systemArgument2 : Arg
  dpcData : Bool

/-- Where the processor is in `KsiDispatchInterrupt` and `KsiRetireDpcList`. -/
inductive RetirePoint (Dpc : Type) where
  | outside
  /-- The interrupt is accepted, `DpcInterruptRequested` not cleared yet. -/
  | entered
  /-- Before the dispatch interrupt looks at the list. -/
  | cleared
  /-- Before `DpcRoutineActive` is set. -/
  | starting
  /-- Before the condition of the loop. -/
  | testing
  /-- Before the lock is taken. -/
  | locking
  /-- The lock is held, the list not looked at again yet. -/
  | locked
  /-- The lock is held, an entry is popped or the list was found empty. -/
  | unlocking (popped : Option Dpc)
  /-- Before the arguments of the popped call are read. -/
  | calling (dpc : Dpc)
  | running (dpc : Dpc)
  /-- The loop is left, `DpcRoutineActive` not cleared yet. -/
  | finishing
  deriving DecidableEq

namespace RetirePoint
variable {Dpc : Type}

def holdsLock : RetirePoint Dpc → Bool
  | .locked | .unlocking _ => true
  | _ => false

def routineActive : RetirePoint Dpc → Bool
  | .outside | .entered | .cleared | .starting => false
  | _ => true

/-- The list is looked at again before `DpcRoutineActive` is cleared. -/
def willTest : RetirePoint Dpc → Bool
  | .outside | .unlocking none | .finishing => false
  | _ => true

/-- The call that is off the list and whose arguments are still to be read. -/
def taken : RetirePoint Dpc → Option Dpc
  | .unlocking popped => popped
  | .calling dpc => some dpc
  | _ => none

end RetirePoint

/-- The processor's part of `KPRCB`, the calls, and the state of the dispatch
interrupt. `spinning` says that an interrupt waits for the lock held below it. -/
structure KPrcb (Dpc Arg : Type) where
  dpc : Dpc → KDpc Arg
  dpcListHead : List Dpc
  dpcRoutineActive : Bool
  dpcInterruptRequested : Bool
  dispatchPending : Bool
  point : RetirePoint Dpc
  spinning : Bool

variable {Dpc Arg : Type} [DecidableEq Dpc]

/-- `KsInitializeDpc` has set up every call; the arguments are not set by it. -/
def initializedPrcb (importance : Dpc → KDpcImportance) (unset : Arg) : KPrcb Dpc Arg :=
  ⟨fun dpc => ⟨importance dpc, unset, unset, false⟩, [], false, false, false, .outside, false⟩

def ksInsertQueueDpc (σ : KPrcb Dpc Arg) (dpc : Dpc) (systemArgument1 systemArgument2 : Arg) :
    KPrcb Dpc Arg × Bool :=
  if σ.point.holdsLock then ({ σ with spinning := true }, false)
  else if (σ.dpc dpc).dpcData then (σ, false)
  else
    let record := σ.dpc dpc
    let σ := { σ with
      dpc := Function.update σ.dpc dpc ⟨record.importance, systemArgument1, systemArgument2, true⟩
      dpcListHead := if record.importance = .high then dpc :: σ.dpcListHead else σ.dpcListHead ++ [dpc] }
    if !σ.dpcRoutineActive && !σ.dpcInterruptRequested then
      ({ σ with dpcInterruptRequested := true, dispatchPending := true }, true)
    else (σ, true)

def ksRemoveQueueDpc (σ : KPrcb Dpc Arg) (dpc : Dpc) : KPrcb Dpc Arg × Bool :=
  if (σ.dpc dpc).dpcData then
    if σ.point.holdsLock then ({ σ with spinning := true }, false)
    else
      ({ σ with
          dpc := Function.update σ.dpc dpc { σ.dpc dpc with dpcData := false }
          dpcListHead := σ.dpcListHead.erase dpc }, true)
  else (σ, false)

/-- The next step of the dispatch interrupt, with the call it makes. -/
def ksiDispatchInterrupt (σ : KPrcb Dpc Arg) : Option (KPrcb Dpc Arg × Option (Dpc × Arg × Arg)) :=
  match σ.point with
  | .outside => none
  | .entered => some ({ σ with dpcInterruptRequested := false, point := .cleared }, none)
  | .cleared =>
    some ({ σ with point := if σ.dpcListHead.isEmpty then .outside else .starting }, none)
  | .starting => some ({ σ with dpcRoutineActive := true, point := .testing }, none)
  | .testing =>
    some ({ σ with point := if σ.dpcListHead.isEmpty then .finishing else .locking }, none)
  | .locking => some ({ σ with point := .locked }, none)
  | .locked =>
    match σ.dpcListHead with
    | [] => some ({ σ with point := .unlocking none }, none)
    | dpc :: rest =>
      some
        ({ σ with
            dpc := Function.update σ.dpc dpc { σ.dpc dpc with dpcData := false }
            dpcListHead := rest
            point := .unlocking (some dpc) }, none)
  | .unlocking none => some ({ σ with point := .finishing }, none)
  | .unlocking (some dpc) => some ({ σ with point := .calling dpc }, none)
  | .calling dpc =>
    some ({ σ with point := .running dpc },
      some (dpc, (σ.dpc dpc).systemArgument1, (σ.dpc dpc).systemArgument2))
  | .running _ => some ({ σ with point := .testing }, none)
  | .finishing => some ({ σ with dpcRoutineActive := false, point := .outside }, none)

/-- `clock` is the request that the clock interrupt makes at its end, whatever
is queued; `accept` is the processor taking the pending dispatch interrupt. -/
inductive DpcAction (Dpc Arg : Type) where
  | insert (dpc : Dpc) (systemArgument1 systemArgument2 : Arg)
  | remove (dpc : Dpc)
  | clock
  | accept
  | dispatch

end VeaOS.Ks
