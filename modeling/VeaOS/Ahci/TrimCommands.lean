import Mathlib.Data.List.Pairwise
import VeaOS.Rtl.Division

/-! The commands that tell a disk which sectors it may forget. The ranges of a
request are in bytes; they go out in batches of 64, as sector numbers of 48 bits
and counts of 16. -/
namespace VeaOS.Ahci
open Rtl

structure DeviceDataSetRange where
  startingOffset : BitVec 64
  lengthInBytes : BitVec 64
  deriving DecidableEq, Repr

def DeviceDataSetRange.start (range : DeviceDataSetRange) : Int := range.startingOffset.toInt

structure AtaTrimRangeEntry where
  startLba : BitVec 48
  sectorCount : BitVec 16
  deriving DecidableEq, Repr

inductive TrimStatus where
  | success
  | invalidParameter
  | deviceBusy
  | insufficientResources
  | failed (status : BitVec 32)
  deriving DecidableEq, Repr

/-- What a request finds, by the number of the command: a free slot, memory for the payload,
and how the command ends. -/
structure TrimWorld where
  slotFree : Nat → Bool
  payloadAllocated : Nat → Bool
  refuses : Nat → Option (BitVec 32)

/-- How a request ends, with the payloads of the commands that it issued. -/
structure TrimOutcome where
  status : TrimStatus
  commands : List (List AtaTrimRangeEntry)
  deriving DecidableEq, Repr

def trimBatchSize : Nat := 64

/-- The quotients are cut to the fields. -/
def trimEntry (sectorSize : BitVec 32) (range : DeviceDataSetRange) : AtaTrimRangeEntry where
  startLba := (rtlDivideSigned64 range.startingOffset (sectorSize.setWidth 64)).quotient.setWidth 48
  sectorCount := (rtlDivideUnsigned64 range.lengthInBytes (sectorSize.setWidth 64)).quotient.setWidth 16

/-- The payload of 512 bytes, of which the rest is zero. -/
def trimPayload (sectorSize : BitVec 32) (batch : List DeviceDataSetRange) : List AtaTrimRangeEntry :=
  batch.map (trimEntry sectorSize) ++ List.replicate (trimBatchSize - batch.length) ⟨0, 0⟩

/-- The loop, with the batches that are left and the number of the command. -/
def trimLoop (world : TrimWorld) (sectorSize : BitVec 32) :
    Nat → List (List DeviceDataSetRange) → TrimOutcome
  | _, [] => ⟨.success, []⟩
  | k, batch :: rest =>
    if !world.slotFree k then ⟨.deviceBusy, []⟩
    else if !world.payloadAllocated k then ⟨.insufficientResources, []⟩
    else match world.refuses k with
      | some status => ⟨.failed status, [trimPayload sectorSize batch]⟩
      | none =>
        let later := trimLoop world sectorSize (k + 1) rest
        ⟨later.status, trimPayload sectorSize batch :: later.commands⟩

/-- The ranges in the batches of the loop, 64 from where the last one ended. -/
def trimBatches (ranges : List DeviceDataSetRange) : List (List DeviceDataSetRange) :=
  (List.range ((ranges.length + (trimBatchSize - 1)) / trimBatchSize)).map fun k =>
    (ranges.drop (k * trimBatchSize)).take trimBatchSize

def ahciSendTrimCommand (world : TrimWorld) (sectorSize : BitVec 32) (ranges : List DeviceDataSetRange) :
    TrimOutcome :=
  if ranges = [] then ⟨.invalidParameter, []⟩
  else trimLoop world sectorSize 0 (trimBatches ranges)

section Sectors

/-- The sectors that an entry of a payload names. -/
def AtaTrimRangeEntry.names (entry : AtaTrimRangeEntry) (n : Nat) : Prop :=
  entry.startLba.toNat ≤ n ∧ n < entry.startLba.toNat + entry.sectorCount.toNat

def DeviceDataSetRange.holds (range : DeviceDataSetRange) (sectorSize : BitVec 32) (n : Nat) : Prop :=
  range.start ≤ n * sectorSize.toNat ∧
    (n + 1) * sectorSize.toNat ≤ range.start + range.lengthInBytes.toNat

/-- Every sector named is in a range as a whole, and on success all of these are named. -/
structure TrimRight (sectorSize : BitVec 32) (ranges : List DeviceDataSetRange) (outcome : TrimOutcome) : Prop where
  inside : ∀ payload ∈ outcome.commands, ∀ entry ∈ payload, ∀ n, entry.names n →
    ∃ range ∈ ranges, range.holds sectorSize n
  complete : outcome.status = .success → ∀ range ∈ ranges, ∀ n, range.holds sectorSize n →
    ∃ payload ∈ outcome.commands, ∃ entry ∈ payload, entry.names n

/-- The fields that are written for a range are those of its whole sectors. From a start at or
behind zero these are no sectors, or they begin with the range and fit the fields. From a start
below zero there may be none likewise, or they are the first ones of the disk. Where a sector has
no bytes the range has to be apart from the first byte, as the quotients are zero. -/
def FieldsFit (sectorSize : BitVec 32) (range : DeviceDataSetRange) : Prop :=
  let s := sectorSize.toNat
  let p := range.start.natAbs
  let l := range.lengthInBytes.toNat
  if s = 0 then 0 < range.start ∨ range.start + l < 0
  else (0 ≤ range.start ∧ (l < s ∨ s ∣ p ∧ p / s < 2 ^ 48 ∧ l / s < 2 ^ 16)) ∨
    (range.start < 0 ∧ (l < s + p ∧ l / s % 2 ^ 16 = 0 ∨
      2 ^ 48 ∣ p / s ∧ p % s ≤ l % s ∧ p / s ≤ l / s ∧ l / s < p / s + 2 ^ 16))

end Sectors

end VeaOS.Ahci
