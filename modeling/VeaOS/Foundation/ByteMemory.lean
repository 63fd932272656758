import Mathlib.Data.List.GetD
import Mathlib.Data.BitVec

/-! Memory that is blocks of bytes, and the integers of two and of four bytes in
it, the low byte first. A pointer may run past what its block was obtained for;
no pointer into another block meets it there. -/
namespace VeaOS.Foundation

open List

abbrev Byte := BitVec 8

structure Pointer (Block : Type) where
  block : Block
  offset : Nat
deriving DecidableEq

namespace Pointer
variable {Block : Type}

def add (p : Pointer Block) (n : Nat) : Pointer Block := ⟨p.block, p.offset + n⟩

@[simp] theorem add_block (p : Pointer Block) (n : Nat) : (p.add n).block = p.block := rfl

@[simp] theorem add_offset (p : Pointer Block) (n : Nat) : (p.add n).offset = p.offset + n := rfl

/-- The bytes at a pointer, as many as given. -/
def Spans (p : Pointer Block) (n : Nat) (block : Block) (i : Nat) : Prop :=
  block = p.block ∧ p.offset ≤ i ∧ i < p.offset + n

instance [DecidableEq Block] (p : Pointer Block) (n : Nat) (block : Block) (i : Nat) :
    Decidable (p.Spans n block i) :=
  inferInstanceAs (Decidable (_ ∧ _ ∧ _))

theorem spans_add {p : Pointer Block} (inside : i < n) : p.Spans n p.block (p.offset + i) :=
  ⟨rfl, Nat.le_add_right _ _, Nat.add_lt_add_left inside _⟩

theorem Spans.sub {p : Pointer Block} {b : Block} (spans : (p.add k).Spans l b i)
    (inside : k + l ≤ n) : p.Spans n b i := by
  obtain ⟨same, low, high⟩ := spans
  simp only [add_offset] at low high
  exact ⟨same, by omega, by omega⟩

end Pointer

section Integers

/-- The low `n` bytes of a number. -/
def littleEndian : Nat → Nat → List Byte
  | 0, _ => []
  | n + 1, value => BitVec.ofNat 8 value :: littleEndian n (value / 256)

def ofLittleEndian : List Byte → Nat
  | [] => 0
  | byte :: rest => byte.toNat + 256 * ofLittleEndian rest

@[simp] theorem littleEndian_length (n value : Nat) : (littleEndian n value).length = n := by
  induction n generalizing value with
  | zero => rfl
  | succ n ih => rw [littleEndian, length_cons, ih]

theorem littleEndian_ofLittleEndian (bytes : List Byte) (few : bytes.length ≤ n) :
    littleEndian n (ofLittleEndian bytes) = bytes ++ replicate (n - bytes.length) 0 := by
  induction bytes generalizing n with
  | nil =>
    induction n with
    | zero => rfl
    | succ n ih =>
      rw [ofLittleEndian, littleEndian, Nat.zero_div]
      have rest := ih (Nat.zero_le _)
      rw [ofLittleEndian] at rest
      rw [rest]
      rfl
  | cons byte rest ih =>
    obtain _ | n := n
    · exact absurd few (Nat.not_succ_le_zero _)
    · rw [ofLittleEndian, littleEndian,
        show (byte.toNat + 256 * ofLittleEndian rest) / 256 = ofLittleEndian rest by
          have bound := byte.isLt
          omega,
        ih (Nat.le_of_succ_le_succ few), length_cons, Nat.succ_sub_succ, cons_append]
      congr 1
      apply BitVec.eq_of_toNat_eq
      rw [BitVec.toNat_ofNat]
      have bound := byte.isLt
      omega

theorem ofLittleEndian_four (value : Nat) :
    ofLittleEndian (littleEndian 4 value) = value % 0x100000000 := by
  simp only [littleEndian, ofLittleEndian, BitVec.toNat_ofNat]
  omega

theorem ofLittleEndian_lt (bytes : List Byte) (few : bytes.length ≤ 4) :
    ofLittleEndian bytes < 0x100000000 := by
  have same := congrArg ofLittleEndian (littleEndian_ofLittleEndian bytes few)
  rw [ofLittleEndian_four] at same
  match bytes, few with
  | [], _ => decide
  | [a], _ | [a, b], _ | [a, b, c], _ | [a, b, c, d], _ =>
    simp only [ofLittleEndian]
    omega

end Integers

section Splice

def splice (bytes : List Byte) (k : Nat) (part : List Byte) : List Byte :=
  bytes.take k ++ part ++ bytes.drop (k + part.length)

theorem splice_length (inside : k + part.length ≤ bytes.length) : (splice bytes k part).length = bytes.length := by
  simp only [splice, length_append, length_take, length_drop]
  omega

theorem splice_getD (inside : k + part.length ≤ bytes.length) (i : Nat) (other : Byte) :
    (splice bytes k part).getD i other =
      if k ≤ i ∧ i < k + part.length then part.getD (i - k) other else bytes.getD i other := by
  have front : (bytes.take k).length = k := by
    rw [length_take]
    omega
  rw [splice, append_assoc]
  by_cases before : i < k
  · rw [getD_append _ _ _ _ (by omega), if_neg (by omega), getD_eq_getElem?_getD,
      getElem?_take_of_lt before, ← getD_eq_getElem?_getD]
  · rw [getD_append_right _ _ _ _ (by omega), front]
    by_cases within : i < k + part.length
    · rw [getD_append _ _ _ _ (by omega), if_pos (by omega)]
    · rw [getD_append_right _ _ _ _ (by omega), if_neg (by omega), getD_eq_getElem?_getD,
        getElem?_drop, ← getD_eq_getElem?_getD]
      congr 1
      omega

end Splice

abbrev Memory (Block : Type) := Block → Nat → Byte

namespace Memory
variable {Block : Type} [DecidableEq Block] (m : Memory Block)

def readBytes (p : Pointer Block) (n : Nat) : List Byte :=
  (List.range n).map fun i => m p.block (p.offset + i)

def writeBytes (p : Pointer Block) (bytes : List Byte) : Memory Block := fun block i =>
  if p.Spans bytes.length block i then bytes.getD (i - p.offset) 0 else m block i

def zeroBytes (p : Pointer Block) (n : Nat) : Memory Block := fun block i =>
  if p.Spans n block i then 0 else m block i

def read16 (p : Pointer Block) : BitVec 16 := BitVec.ofNat 16 (ofLittleEndian (m.readBytes p 2))
def read32 (p : Pointer Block) : BitVec 32 := BitVec.ofNat 32 (ofLittleEndian (m.readBytes p 4))

def write16 (p : Pointer Block) (value : BitVec 16) : Memory Block :=
  m.writeBytes p (littleEndian 2 value.toNat)

def write32 (p : Pointer Block) (value : BitVec 32) : Memory Block :=
  m.writeBytes p (littleEndian 4 value.toNat)

variable {m} {m' : Memory Block} {p q : Pointer Block} {block : Block} {i n : Nat}

section Reads

omit [DecidableEq Block] in
@[simp] theorem readBytes_length (n : Nat) : (m.readBytes p n).length = n := by
  rw [readBytes, length_map, length_range]

omit [DecidableEq Block] in
theorem readBytes_congr (same : ∀ block i, p.Spans n block i → m' block i = m block i) :
    m'.readBytes p n = m.readBytes p n := by
  apply map_congr_left
  intro i member
  exact same _ _ (Pointer.spans_add (mem_range.mp member))

omit [DecidableEq Block] in
theorem read16_congr (same : ∀ block i, p.Spans 2 block i → m' block i = m block i) :
    m'.read16 p = m.read16 p := by
  rw [read16, readBytes_congr same, read16]

omit [DecidableEq Block] in
theorem read32_congr (same : ∀ block i, p.Spans 4 block i → m' block i = m block i) :
    m'.read32 p = m.read32 p := by
  rw [read32, readBytes_congr same, read32]

omit [DecidableEq Block] in
theorem readBytes_slice (inside : k + l ≤ n) : ((m.readBytes p n).drop k).take l = m.readBytes (p.add k) l := by
  apply ext_getElem
  · simp only [length_take, length_drop, readBytes_length]
    omega
  · intro i _ below
    rw [readBytes_length] at below
    simp only [readBytes, getElem_take, getElem_drop, getElem_map, getElem_range,
      Pointer.add_block, Pointer.add_offset, Nat.add_assoc]

end Reads

section Writes

theorem writeBytes_outside (outside : ¬ p.Spans bytes.length block i) :
    m.writeBytes p bytes block i = m block i := if_neg outside

theorem write32_outside (outside : ¬ p.Spans 4 block i) : m.write32 p v block i = m block i :=
  writeBytes_outside (by rwa [littleEndian_length])

theorem zeroBytes_outside (outside : ¬ p.Spans n block i) : m.zeroBytes p n block i = m block i :=
  if_neg outside

theorem writeBytes_block (other : block ≠ p.block) : m.writeBytes p bytes block i = m block i :=
  writeBytes_outside fun spans => other spans.1

theorem write32_block (other : block ≠ p.block) : m.write32 p v block i = m block i :=
  write32_outside fun spans => other spans.1

theorem zeroBytes_block (other : block ≠ p.block) : m.zeroBytes p n block i = m block i :=
  zeroBytes_outside fun spans => other spans.1

theorem readBytes_writeBytes : (m.writeBytes p bytes).readBytes p bytes.length = bytes := by
  apply ext_getElem
  · exact readBytes_length _
  · intro i inside below
    rw [readBytes_length] at inside
    simp only [readBytes, getElem_map, getElem_range]
    rw [writeBytes, if_pos (Pointer.spans_add inside), Nat.add_sub_cancel_left,
      getD_eq_getElem _ _ below]

@[simp] theorem read32_write32 : (m.write32 p v).read32 p = v := by
  have bytes : (m.writeBytes p (littleEndian 4 v.toNat)).readBytes p (littleEndian 4 v.toNat).length =
      littleEndian 4 v.toNat := readBytes_writeBytes
  rw [littleEndian_length] at bytes
  rw [write32, read32, bytes, ofLittleEndian_four]
  apply BitVec.eq_of_toNat_eq
  rw [BitVec.toNat_ofNat]
  have bound := v.isLt
  omega

omit [DecidableEq Block] in
theorem readBytes_getD (inside : i < n) (other : Byte) :
    (m.readBytes p n).getD i other = m p.block (p.offset + i) := by
  rw [getD_eq_getElem _ _ (by rwa [readBytes_length])]
  simp only [readBytes, getElem_map, getElem_range]

theorem writeBytes_splice {part : List Byte} (inside : k + part.length ≤ n) :
    m.writeBytes p (splice (m.readBytes p n) k part) = m.writeBytes (p.add k) part := by
  have fits : k + part.length ≤ (m.readBytes p n).length := by rwa [readBytes_length]
  funext block i
  by_cases spans : p.Spans n block i
  · obtain ⟨rfl, low, high⟩ := spans
    have whole : p.Spans (splice (m.readBytes p n) k part).length p.block i := by
      rw [splice_length fits, readBytes_length]
      exact ⟨rfl, low, high⟩
    rw [writeBytes, if_pos whole, splice_getD fits, readBytes_getD (by omega) 0, Nat.add_sub_cancel' low, writeBytes]
    by_cases part : k ≤ i - p.offset ∧ i - p.offset < k + part.length
    · rw [if_pos part, if_pos ⟨rfl, by rw [Pointer.add_offset]; omega, by rw [Pointer.add_offset]; omega⟩,
        Pointer.add_offset, Nat.sub_add_eq]
    · rw [if_neg part, if_neg fun spans => part ?_]
      obtain ⟨-, low, high⟩ := spans
      rw [Pointer.add_offset] at low high
      omega
  · rw [writeBytes_outside (by rwa [splice_length fits, readBytes_length]),
      writeBytes_outside fun within => spans (within.sub inside)]

end Writes
end Memory
end VeaOS.Foundation
