import VeaOS.Foundation.PackedBits

/-! Bitmaps of up to 2^32 - 1 bits in words of 32. An index is a number that is taken
modulo 2^32 where the source's arithmetic can leave that range. -/
namespace VeaOS.Rtl

def maxIndex : Nat := 0xFFFFFFFF

def wrap (x : Nat) : Nat := x % 0x100000000

structure RtlBitmap where
  sizeOfBitMap : Nat
  buffer : Nat → BitVec 32
  small : sizeOfBitMap < 0x100000000

section RunLength

/-- The place of the lowest bit that is set. -/
def bitScanForward (value : BitVec 32) : Nat := ((List.range 32).find? fun i => value.getLsbD i).getD 0

/-- The loop over the words that are zero: the word behind the last one read, and that one's value. -/
def skipZero (read : Nat → BitVec 32) : Nat → Nat → BitVec 32 → Nat × BitVec 32
  | 0, buffer, value => (buffer, value)
  | left + 1, buffer, value => if value = 0 then skipZero read left (buffer + 1) (read buffer) else (buffer, value)

/-- The run of zeros from an index on in the words that are read. -/
def rtlpGetLengthOfRun (read : Nat → BitVec 32) (sizeOfBitMap startingIndex maxLength : Nat) : Nat :=
  if startingIndex ≥ sizeOfBitMap then 0
  else
    let buffer := startingIndex / 32
    let bitPos := startingIndex % 32
    let maxLength := min maxLength (sizeOfBitMap - startingIndex)
    let maxBuffer := buffer + wrap (bitPos + maxLength + 31) / 32
    let value := read buffer >>> bitPos <<< bitPos
    let (buffer, value) := skipZero read (maxBuffer - (buffer + 1)) (buffer + 1) value
    if value = 0 then maxLength
    else
      let length := wrap (buffer * 32 + bitScanForward value + 0x100000000 - 32 - startingIndex)
      if length > sizeOfBitMap - startingIndex then sizeOfBitMap - startingIndex else length

def rtlpGetLengthOfRunClear (bitMap : RtlBitmap) : Nat → Nat → Nat :=
  rtlpGetLengthOfRun bitMap.buffer bitMap.sizeOfBitMap

def rtlpGetLengthOfRunSet (bitMap : RtlBitmap) : Nat → Nat → Nat :=
  rtlpGetLengthOfRun (fun i => ~~~bitMap.buffer i) bitMap.sizeOfBitMap

end RunLength

section Search
variable (more : Nat → Nat → Bool) (skip length : Nat → Nat → Nat)

/-- The loop from an index on: the index that is found, `none` inside when its end is reached. -/
def findLoop (numberToFind margin : Nat) : Nat → Nat → Option (Option Nat)
  | 0, _ => none
  | fuel + 1, currentBit =>
    if more (wrap (currentBit + numberToFind)) margin then
      let currentBit := wrap (currentBit + skip currentBit maxIndex)
      let currentLength := length currentBit numberToFind
      if currentLength ≥ numberToFind then some (some currentBit)
      else findLoop numberToFind margin fuel (wrap (currentBit + currentLength))
    else some none

/-- The search from the hint on, and from the start when nothing is found there. -/
def findBits (sizeOfBitMap fuel numberToFind hintIndex : Nat) : Option Nat :=
  if numberToFind > sizeOfBitMap then some maxIndex
  else
    let hintIndex := if hintIndex ≥ sizeOfBitMap then 0 else hintIndex
    if numberToFind = 0 then some (hintIndex / 8 * 8)
    else do
      match ← findLoop more skip length numberToFind sizeOfBitMap fuel hintIndex with
      | some currentBit => return currentBit
      | none =>
        if hintIndex = 0 then return maxIndex
        let margin := min (wrap (hintIndex + numberToFind)) sizeOfBitMap
        return (← findLoop more skip length numberToFind margin fuel 0).getD maxIndex

end Search

def rtlFindClearBits (fuel : Nat) (bitMap : RtlBitmap) : Nat → Nat → Option Nat :=
  findBits (fun next margin => decide (next < margin)) (rtlpGetLengthOfRunSet bitMap)
    (rtlpGetLengthOfRunClear bitMap) bitMap.sizeOfBitMap fuel

def rtlFindSetBits (fuel : Nat) (bitMap : RtlBitmap) : Nat → Nat → Option Nat :=
  findBits (fun next margin => decide (next ≤ margin)) (rtlpGetLengthOfRunClear bitMap)
    (rtlpGetLengthOfRunSet bitMap) bitMap.sizeOfBitMap fuel

section Backward

/-- The place of the highest bit that is set. -/
def bitScanReverse (value : BitVec 32) : Nat := ((List.range 32).reverse.find? fun i => value.getLsbD i).getD 0

/-- The loop down over the words that are zero: how many words are below the last one read, and its value. -/
def skipZeroBack (read : Nat → BitVec 32) : Nat → BitVec 32 → Nat × BitVec 32
  | 0, value => (0, value)
  | buffer + 1, value => if value = 0 then skipZeroBack read buffer (read buffer) else (buffer + 1, value)

/-- The length of the run, and what is stored as its start. -/
def rtlFindLastBackwardRunClear (bitMap : RtlBitmap) (fromIndex : Nat) : Nat × Option Nat :=
  let fromIndex := min fromIndex (wrap (bitMap.sizeOfBitMap + 0xFFFFFFFF))
  let bitPos := 31 - fromIndex % 32
  let invValue := ~~~bitMap.buffer (fromIndex / 32) <<< bitPos >>> bitPos
  let (buffer, invValue) := skipZeroBack (fun i => ~~~bitMap.buffer i) (fromIndex / 32) invValue
  if invValue = 0 then (0, none)
  else
    let bitPos := bitScanReverse invValue
    let fromIndex := wrap (buffer * 32 + bitPos)
    let value := ~~~invValue <<< (31 - bitPos) >>> (31 - bitPos)
    let (buffer, value) := skipZeroBack bitMap.buffer buffer value
    let startingRunIndex := if value ≠ 0 then wrap (buffer * 32 + bitScanReverse value + 1) else 0
    (wrap (fromIndex + 0x100000000 - startingRunIndex), some startingRunIndex)

end Backward

section ClearRuns

structure RtlBitmapRun where
  startingIndex : Nat
  numberOfBits : Nat
  deriving DecidableEq

/-- The length of the next run from an index on, and its start. -/
def rtlFindNextForwardRunClear (bitMap : RtlBitmap) (fromIndex : Nat) : Nat × Nat :=
  if fromIndex ≥ bitMap.sizeOfBitMap then (0, fromIndex)
  else
    let length := rtlpGetLengthOfRunSet bitMap fromIndex maxIndex
    (rtlpGetLengthOfRunClear bitMap (wrap (fromIndex + length)) maxIndex, wrap (fromIndex + length))

/-- The variables of `RtlFindClearRuns`, and the memory from the array on. -/
structure RunSearch where
  runArray : Nat → RtlBitmapRun
  run : Nat
  fromIndex : Nat
  smallestRun : Nat

/-- The first loop, with the slots that are left. -/
def recordRuns (bitMap : RtlBitmap) : Nat → RunSearch → RunSearch
  | 0, s => s
  | left + 1, s =>
    let (numberOfBits, startingIndex) := rtlFindNextForwardRunClear bitMap s.fromIndex
    if numberOfBits = 0 then s
    else
      let runArray := Function.update s.runArray s.run ⟨startingIndex, numberOfBits⟩
      recordRuns bitMap left {
        runArray
        run := s.run + 1
        fromIndex := wrap (startingIndex + numberOfBits)
        smallestRun := if numberOfBits < (runArray s.smallestRun).numberOfBits then s.run else s.smallestRun }

/-- A longer run takes the place of the smallest one. What is compared with the smallest run then is
that longer run itself, not the run at the index. -/
def replaceSmallest (sizeOfRunArray startingIndex numberOfBits : Nat) (s : RunSearch) : RunSearch :=
  if numberOfBits > (s.runArray s.smallestRun).numberOfBits then
    let runArray := Function.update s.runArray s.smallestRun ⟨startingIndex, numberOfBits⟩
    { s with
      runArray
      run := sizeOfRunArray
      smallestRun := (List.range sizeOfRunArray).foldl
        (fun smallest run => if numberOfBits < (runArray smallest).numberOfBits then run else smallest)
        s.smallestRun }
  else s

def replaceRuns (bitMap : RtlBitmap) (sizeOfRunArray : Nat) : Nat → RunSearch → Option RunSearch
  | 0, _ => none
  | fuel + 1, s =>
    let (numberOfBits, startingIndex) := rtlFindNextForwardRunClear bitMap s.fromIndex
    if numberOfBits = 0 then some s
    else
      replaceRuns bitMap sizeOfRunArray fuel {
        replaceSmallest sizeOfRunArray startingIndex numberOfBits s with
        fromIndex := wrap (s.fromIndex + numberOfBits) }

def rtlFindClearRuns (fuel : Nat) (bitMap : RtlBitmap) (runArray : Nat → RtlBitmapRun) (sizeOfRunArray : Nat)
    (locateLongestRuns : Bool) : Option (Nat × (Nat → RtlBitmapRun)) :=
  let s := recordRuns bitMap sizeOfRunArray ⟨runArray, 0, 0, 0⟩
  if s.run < sizeOfRunArray ∨ ¬ locateLongestRuns then some (s.run, s.runArray)
  else (replaceRuns bitMap sizeOfRunArray fuel s).map fun s => (s.run, s.runArray)

end ClearRuns

section Update

def rtlFillMemoryUlong (buffer : Nat → BitVec 32) (destination length : Nat) (pattern : BitVec 32) :
    Nat → BitVec 32 :=
  if length < 4 then buffer
  else fun i => if destination ≤ i ∧ i < destination + length / 4 then pattern else buffer i

/-- The bits of a mask are put into a word, and whole words are filled with a pattern. -/
def updateBits (put : BitVec 32 → BitVec 32 → BitVec 32) (pattern : BitVec 32) (buffer : Nat → BitVec 32)
    (startingIndex number : Nat) : Nat → BitVec 32 :=
  let word := startingIndex / 32
  let bits := startingIndex % 32
  let mask := BitVec.allOnes 32 <<< bits
  if bits ≠ 0 ∧ number < 32 - bits then
    let bits := 32 - bits - number
    Function.update buffer word (put (buffer word) (mask <<< bits >>> bits))
  else
    let (buffer, word, number) :=
      if bits ≠ 0 then (Function.update buffer word (put (buffer word) mask), word + 1, number - (32 - bits))
      else (buffer, word, number)
    let buffer := rtlFillMemoryUlong buffer word (number / 8) pattern
    let word := word + number / 32
    let number := number % 32
    if number ≠ 0 then
      Function.update buffer word (put (buffer word) (~~~(BitVec.allOnes 32 <<< number)))
    else buffer

def rtlSetBits (bitMap : RtlBitmap) (startingIndex numberToSet : Nat) : RtlBitmap :=
  { bitMap with
    buffer := updateBits (fun word mask => word ||| mask) (BitVec.allOnes 32) bitMap.buffer startingIndex
      numberToSet }

def rtlClearBits (bitMap : RtlBitmap) (startingIndex numberToClear : Nat) : RtlBitmap :=
  { bitMap with
    buffer := updateBits (fun word mask => word &&& ~~~mask) 0 bitMap.buffer startingIndex numberToClear }

end Update

def rtlFindClearBitsAndSet (fuel : Nat) (bitMap : RtlBitmap) (numberToFind hintIndex : Nat) :
    Option (Nat × RtlBitmap) := do
  let position ← rtlFindClearBits fuel bitMap numberToFind hintIndex
  return (position, if position ≠ maxIndex then rtlSetBits bitMap position numberToFind else bitMap)

def rtlFindSetBitsAndClear (fuel : Nat) (bitMap : RtlBitmap) (numberToFind hintIndex : Nat) :
    Option (Nat × RtlBitmap) := do
  let position ← rtlFindSetBits fuel bitMap numberToFind hintIndex
  return (position, if position ≠ maxIndex then rtlClearBits bitMap position numberToFind else bitMap)

end VeaOS.Rtl
