import VeaOS.Fat.Volume
import VeaOS.Foundation.Runs

/-! Threads that allocate clusters of one volume. A thread reads the entry of one
cluster after another from the hint on, reads the sector of a free one again,
changes the entry and writes the sector to each table. -/
namespace VeaOS.Fat
open Foundation Transition

/-- Where a call is: the cluster it is at, the first one it looked at, and those it
passed by because a request failed. What it read from the sector of the entry
stays known until the sector is written. -/
inductive AllocPhase where
  | idle
  | scan (start cluster : Nat) (skipped : List Nat)
  | change (start cluster : Nat) (skipped : List Nat)
  | write (start cluster : Nat) (skipped : List Nat) (found : List Byte) (copy : Nat)

/-- A request of a thread, and whether its buffer and the disk are there for it. -/
inductive AllocStep where
  | enter (thread : Nat)
  | readNext (thread : Nat) (succeeds : Bool)
  | readEntry (thread : Nat) (succeeds : Bool)
  | writeEntry (thread : Nat) (succeeds : Bool)

structure AllocState where
  disk : Disk
  nextFreeCluster : Nat
  phases : Nat → AllocPhase
  returned : List Nat
  diskFull : Bool

section Model
variable (vcb : Vcb) (σ : AllocState)

namespace AllocState

def setPhase (thread : Nat) (phase : AllocPhase) : AllocState :=
  { σ with phases := Function.update σ.phases thread phase }

def startSearch : Nat :=
  if 2 ≤ σ.nextFreeCluster ∧ σ.nextFreeCluster < vcb.totalClusters then σ.nextFreeCluster else 2

def search (thread start cluster : Nat) (skipped : List Nat) : AllocState :=
  if cluster < vcb.totalClusters then σ.setPhase thread (.scan start cluster skipped)
  else { σ.setPhase thread .idle with diskFull := true }

def fatpAllocated (thread cluster : Nat) : AllocState :=
  { σ.setPhase thread .idle with nextFreeCluster := cluster + 1, returned := cluster :: σ.returned }

def writeNext (thread start cluster : Nat) (skipped : List Nat) (found : List Byte) (copy : Nat) : AllocState :=
  if copy < vcb.numberOfFats then σ.setPhase thread (.write start cluster skipped found copy)
  else σ.fatpAllocated thread cluster

def step : AllocStep → Option AllocState
  | .enter thread =>
    match σ.phases thread with
    | .idle => some (σ.search vcb thread (σ.startSearch vcb) (σ.startSearch vcb) [])
    | _ => none
  | .readNext thread succeeds =>
    match σ.phases thread with
    | .scan start cluster skipped =>
      if !succeeds then some (σ.search vcb thread start (cluster + 1) (cluster :: skipped))
      else if vcb.next σ.disk cluster = 0 then some (σ.setPhase thread (.change start cluster skipped))
      else some (σ.search vcb thread start (cluster + 1) skipped)
    | _ => none
  | .readEntry thread succeeds =>
    match σ.phases thread with
    | .change start cluster skipped =>
      if !succeeds then some (σ.search vcb thread start (cluster + 1) (cluster :: skipped))
      else some (σ.writeNext vcb thread start cluster skipped
        (vcb.readSector σ.disk (vcb.targetFatLba cluster 0)) 0)
    | _ => none
  | .writeEntry thread succeeds =>
    match σ.phases thread with
    | .write start cluster skipped found copy =>
      if !succeeds then some (σ.search vcb thread start (cluster + 1) (cluster :: skipped))
      else
        let buffer := vcb.withEntry found cluster endOfChain
        let σ := { σ with disk := Vcb.writeSector σ.disk (vcb.targetFatLba cluster copy) buffer }
        some (σ.writeNext vcb thread start cluster skipped found (copy + 1))
    | _ => none

/-- If the search ends behind this cluster, no cluster that it has not looked at is free. -/
def EndsFull (start cluster : Nat) (skipped : List Nat) : Prop :=
  vcb.totalClusters ≤ cluster → ∀ x, x < vcb.totalClusters + 2 → 2 ≤ x →
    (x < start ∨ vcb.totalClusters ≤ x ∨ x ∈ skipped) → vcb.next σ.disk x ≠ 0

instance (start cluster : Nat) (skipped : List Nat) : Decidable (σ.EndsFull vcb start cluster skipped) :=
  inferInstanceAs (Decidable (_ → _))

/-- The entry is still free when its sector is read to be changed, and the sector
is unchanged in each table when it is written back, or not written at all. -/
def Admits : AllocStep → Prop
  | .enter thread =>
    match σ.phases thread with
    | .idle => σ.EndsFull vcb (σ.startSearch vcb) (σ.startSearch vcb) []
    | _ => True
  | .readNext thread succeeds =>
    match σ.phases thread with
    | .scan start cluster skipped =>
      (succeeds = true ∧ vcb.next σ.disk cluster = 0) ∨
      σ.EndsFull vcb start (cluster + 1) (if succeeds then skipped else cluster :: skipped)
    | _ => True
  | .readEntry thread succeeds =>
    match σ.phases thread with
    | .change start cluster skipped =>
      if succeeds then vcb.next σ.disk cluster = 0
      else σ.EndsFull vcb start (cluster + 1) (cluster :: skipped)
    | _ => True
  | .writeEntry thread succeeds =>
    match σ.phases thread with
    | .write start cluster skipped found copy =>
      if succeeds then vcb.readSector σ.disk (vcb.targetFatLba cluster copy) = found
      else copy = 0 ∧ σ.EndsFull vcb start (cluster + 1) (cluster :: skipped)
    | _ => True

end AllocState
end Model
end VeaOS.Fat
