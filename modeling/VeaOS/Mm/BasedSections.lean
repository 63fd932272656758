import Mathlib.Algebra.GroupWithZero.Nat
import Mathlib.Data.List.Find
import VeaOS.Mm.AddressSpace

/-! Where a based section is placed. The search walks the tree of the based sections
and compares addresses with the page numbers that the tree holds, so it misses all
sections but those that the few lowest addresses would meet. -/
namespace VeaOS.Mm
open Foundation PointerTree Rtl List

/-- `basedAddress` is kept in the segment. -/
structure BasedSection where
  basedAddress : BitVec 32
  endingVpn : BitVec 32

structure BasedSections where
  mmSectionBasedTree : AvlTree Nat
  address : Nat → BasedSection

namespace BasedSections

/-- The field has the place of `Balance` in the node that the tree links. -/
def startingVpn (σ : BasedSections) (v : Nat) : BitVec 32 := BitVec.ofInt 32 (σ.mmSectionBasedTree.balance v)

def first (σ : BasedSections) (v : Nat) : Nat := (σ.address v).basedAddress.toNat / 4096
def last (σ : BasedSections) (v : Nat) : Nat := (σ.address v).endingVpn.toNat

end BasedSections

section Model

/-- The address that is tried next where a section is in the way. -/
def belowSection (secStart size alignment : BitVec 32) : BitVec 32 := (secStart - size) &&& ~~~(alignment - 1)

/-- The loop, from the node `Current` on. -/
def searchDown (σ : BasedSections) (size alignment : BitVec 32) :
    Nat → Option Nat → BitVec 32 → Option (Except VeaStatus (BitVec 32))
  | _, none, candidate => some (if candidate < 0x10000 then .error .noMemory else .ok candidate)
  | 0, some _, _ => none
  | fuel + 1, some current, candidate =>
    let secStart := σ.startingVpn current
    let secEnd := (σ.address current).endingVpn
    if candidate < secEnd ∧ candidate + size > secStart then
      searchDown σ size alignment fuel σ.mmSectionBasedTree.root (belowSection secStart size alignment)
    else searchDown σ size alignment fuel (σ.mmSectionBasedTree.child .left current) candidate

def miFindEmptyAddressRangeDownBasedTree (fuel : Nat) (σ : BasedSections)
    (size highestAddress alignment : BitVec 32) : Option (Except VeaStatus (BitVec 32)) :=
  let targetAddress := belowSection highestAddress size alignment
  match σ.mmSectionBasedTree.root with
  | none => some (.ok targetAddress)
  | some root => searchDown σ size alignment fuel (some root) targetAddress

end Model

/-- The top of the addresses of the user, and the alignment of based sections. -/
def highestBased : BitVec 32 := 0x7FFF0000
def basedAlignment : BitVec 32 := 0x10000

/-- The range does not wrap and meets no section, neither in bytes nor in the pages that are
inserted for it. -/
structure PlacedApart (σ : BasedSections) (nodes : List Nat) (size base : Nat) : Prop where
  inside : base + size ≤ 0x100000000
  bytes : ∀ v ∈ nodes, ∀ a, base ≤ a → a < base + size → ¬ (σ.first v * 4096 ≤ a ∧ a < (σ.last v + 1) * 4096)
  pages : ∀ v ∈ nodes, ∀ p, base / 4096 ≤ p → p < base / 4096 + size / 4096 → ¬ (σ.first v ≤ p ∧ p ≤ σ.last v)

/-- The highest place that the alignment allows. -/
def topPlace (size : Nat) : Nat := (0x7FFF0000 - size) / 0x10000 * 0x10000

/-- What lies below the height of a section when it is taken for an address. -/
def wrappedPlace (height size : Nat) : Nat := (0x100000000 + height - size) / 0x10000 * 0x10000

def leftSpine : KeyTree Nat Int → List Nat
  | .nil => []
  | .node l k _ _ => k :: leftSpine l

/-- No byte of the range belongs to a section. -/
def FreeOfSections (σ : BasedSections) (nodes : List Nat) (size base : Nat) : Prop :=
  ∀ v ∈ nodes, ∀ a, base ≤ a → a < base + size → ¬ (σ.first v * 4096 ≤ a ∧ a < (σ.last v + 1) * 4096)

/-- The highest place is free, or too low for a tree with sections; where the last page number of a
section on the left lies above it, it is the place below the height of that section that has to be free. -/
def PlaceFree (σ : BasedSections) (t : KeyTree Nat Int) (size : Nat) : Prop :=
  size ≤ 0x7FFF0000 ∧
    match (leftSpine t).find? fun v => topPlace size < σ.last v with
    | none => topPlace size < 0x10000 ∧ t ≠ .nil ∨ FreeOfSections σ t.inorder size (topPlace size)
    | some v => wrappedPlace (σ.startingVpn v).toNat size + size ≤ 0x100000000 ∧
        FreeOfSections σ t.inorder size (wrappedPlace (σ.startingVpn v).toNat size)

section Search
variable {σ : BasedSections} {t : KeyTree Nat Int}

theorem toNat_alignBased (x : BitVec 32) : (x &&& ~~~(basedAlignment - 1)).toNat = x.toNat / 0x10000 * 0x10000 := by
  have mask : ∀ i : Fin 32, (~~~(basedAlignment - 1)).getLsbD i = decide (16 ≤ i.val) := by decide
  have same : x &&& ~~~(basedAlignment - 1) = (x >>> 16) <<< 16 := by
    apply BitVec.eq_of_getLsbD_eq
    intro i bound
    rw [BitVec.getLsbD_and, mask ⟨i, bound⟩, BitVec.getLsbD_shiftLeft, BitVec.getLsbD_ushiftRight]
    by_cases high : 16 ≤ i
    · simp [high, bound, show ¬ i < 16 by omega, show 16 + (i - 16) = i by omega]
    · simp [high, show i < 16 by omega]
  have small := x.isLt
  have shifted : (x >>> 16).toNat = x.toNat / 0x10000 := by
    rw [BitVec.toNat_ushiftRight, Nat.shiftRight_eq_div_pow]
  rw [same, BitVec.toNat_shiftLeft, Nat.shiftLeft_eq, shifted]
  omega

theorem belowSection_le (size secStart : BitVec 32) (le : size.toNat ≤ secStart.toNat) :
    (belowSection secStart size basedAlignment).toNat = (secStart.toNat - size.toNat) / 0x10000 * 0x10000 := by
  rw [belowSection, toNat_alignBased, BitVec.toNat_sub_of_le le]

theorem belowSection_lt (size secStart : BitVec 32) (less : secStart.toNat < size.toNat) :
    (belowSection secStart size basedAlignment).toNat = wrappedPlace secStart.toNat size.toNat := by
  have := size.isLt
  have wraps : (secStart - size).toNat = 0x100000000 + secStart.toNat - size.toNat := by
    rw [BitVec.toNat_sub]
    omega
  rw [belowSection, toNat_alignBased, wraps, wrappedPlace]

theorem searchDown_spine (size alignment candidate : BitVec 32) (stored : σ.mmSectionBasedTree.Stored up t)
    (enough : (leftSpine t).length ≤ fuel) :
    (∀ v ∈ leftSpine t, ¬ (candidate < (σ.address v).endingVpn ∧ candidate + size > σ.startingVpn v)) ∧
        searchDown σ size alignment fuel t.root candidate =
          some (if candidate < 0x10000 then .error .noMemory else .ok candidate) ∨
      ∃ v rest, (leftSpine t).find? (fun v => decide (candidate < (σ.address v).endingVpn ∧
          candidate + size > σ.startingVpn v)) = some v ∧ fuel ≤ rest + (leftSpine t).length ∧
        searchDown σ size alignment fuel t.root candidate = searchDown σ size alignment rest
          σ.mmSectionBasedTree.root (belowSection (σ.startingVpn v) size alignment) := by
  induction t generalizing up fuel with
  | nil =>
    left
    refine ⟨fun v => (absurd · not_mem_nil), ?_⟩
    cases fuel <;> rfl
  | node l k d r left _ =>
    obtain ⟨onLeft, _, _, _, below, _⟩ := stored
    simp only [leftSpine, length_cons] at enough ⊢
    obtain ⟨fuel, rfl⟩ : ∃ less, fuel = less + 1 := ⟨fuel - 1, by omega⟩
    simp only [KeyTree.root, searchDown, onLeft, find?_cons, forall_mem_cons]
    by_cases hits : candidate < (σ.address k).endingVpn ∧ candidate + size > σ.startingVpn k
    · right
      refine ⟨k, fuel, ?_, by omega, ?_⟩
      · simp only [hits, and_self, decide_true]
      · rw [if_pos hits]
    · rw [if_neg hits]
      rcases left below (show _ ≤ fuel by omega) with ⟨clear, ended⟩ | ⟨v, rest, found, short, goes⟩
      · exact .inl ⟨⟨hits, clear⟩, ended⟩
      · refine .inr ⟨v, rest, ?_, by omega, goes⟩
        simp only [hits, decide_false, found]

theorem leftSpine_subset (t : KeyTree Nat Int) : ∀ v ∈ leftSpine t, v ∈ t.inorder := by
  induction t with
  | nil => exact fun v => (absurd · not_mem_nil)
  | node l k d r left _ =>
    intro v member
    rcases mem_cons.mp member with rfl | deeper
    · simp [KeyTree.inorder]
    · exact mem_append_left _ (left v deeper)

theorem leftSpine_length (t : KeyTree Nat Int) : (leftSpine t).length ≤ t.size := by
  induction t with
  | nil => exact Nat.le_refl 0
  | node l k d r left _ =>
    simp only [leftSpine, length_cons, KeyTree.size]
    omega

theorem placedApart_iff (aligned : base % 4096 = 0) : PlacedApart σ nodes size base ↔
    base + size ≤ 0x100000000 ∧ FreeOfSections σ nodes size base := by
  constructor
  · exact fun placed => ⟨placed.inside, placed.bytes⟩
  · rintro ⟨inside, free⟩
    refine ⟨inside, free, fun v member p low high overlaps => ?_⟩
    exact free v member (p * 4096) (by omega) (by omega) ⟨by omega, by omega⟩

theorem hits_iff (within : size.toNat ≤ 0x7FFF0000) (place : candidate.toNat = topPlace size.toNat)
    (first : (σ.startingVpn v).toNat < 0x100000) (_ : σ.last v < 0x100000) :
    (candidate < (σ.address v).endingVpn ∧ candidate + size > σ.startingVpn v) ↔
      topPlace size.toNat < σ.last v := by
  rw [BasedSections.last] at *
  rw [topPlace] at place ⊢
  have total : (candidate + size).toNat = candidate.toNat + size.toNat := by
    rw [BitVec.toNat_add]
    omega
  rw [BitVec.lt_def, gt_iff_lt, BitVec.lt_def, total]
  omega

theorem searchDown_high (size candidate : BitVec 32) (focus : Focus σ.mmSectionBasedTree σ.mmSectionBasedTree .top t)
    (bounds : ∀ v ∈ t.inorder, (σ.startingVpn v).toNat < 0x100000 ∧ σ.last v < 0x100000) (high : 0x100000 ≤ candidate.toNat)
    (enough : (leftSpine t).length ≤ fuel) :
    searchDown σ size basedAlignment fuel t.root candidate = some (.ok candidate) := by
  have apart : ∀ v ∈ leftSpine t, ¬ candidate < (σ.address v).endingVpn := by
    intro v member
    have := (bounds v (leftSpine_subset t v member)).2
    rw [BasedSections.last] at this
    rw [BitVec.lt_def]
    omega
  have low : ¬ candidate < 0x10000 := by
    have limit : (0x10000 : BitVec 32).toNat = 0x10000 := rfl
    rw [BitVec.lt_def, limit]
    omega
  rcases searchDown_spine size basedAlignment candidate focus.stored enough with ⟨_, ended⟩ | ⟨v, _, found, _⟩
  · rw [ended, if_neg low]
  · have hits := find?_some found
    rw [decide_eq_true_eq] at hits
    exact absurd hits.1 (apart v (mem_of_find?_eq_some found))

theorem find_nil (focus : Focus σ.mmSectionBasedTree σ.mmSectionBasedTree .top .nil) :
    miFindEmptyAddressRangeDownBasedTree fuel σ size highestBased alignment =
      some (.ok (belowSection highestBased size alignment)) := by
  simp only [miFindEmptyAddressRangeDownBasedTree, focus.root_top, KeyTree.root_nil]

theorem find_node (focus : Focus σ.mmSectionBasedTree σ.mmSectionBasedTree .top t) (rooted : t ≠ .nil) :
    miFindEmptyAddressRangeDownBasedTree fuel σ size highestBased alignment =
      searchDown σ size alignment fuel t.root (belowSection highestBased size alignment) := by
  cases t with
  | nil => exact absurd rfl rooted
  | node l k d r => simp only [miFindEmptyAddressRangeDownBasedTree, focus.root_top, KeyTree.root]

theorem beyond_wraps (size : BitVec 32) (beyond : ¬ size.toNat ≤ 0x7FFF0000) :
    0x7FFF0000 ≤ (belowSection highestBased size basedAlignment).toNat ∧
      0x100000000 < (belowSection highestBased size basedAlignment).toNat + size.toNat := by
  have top : highestBased.toNat = 0x7FFF0000 := rfl
  have bound := size.isLt
  rw [belowSection_lt size highestBased (by omega), top, wrappedPlace]
  omega

theorem searchDown_cases (size target : BitVec 32) (focus : Focus σ.mmSectionBasedTree σ.mmSectionBasedTree .top t)
    (bounds : ∀ v ∈ t.inorder, (σ.startingVpn v).toNat < 0x100000 ∧ σ.last v < 0x100000) (within : size.toNat ≤ 0x7FFF0000)
    (place : target.toNat = topPlace size.toNat) (enough : 2 * t.size ≤ fuel) :
    match (leftSpine t).find? fun v => topPlace size.toNat < σ.last v with
    | none => searchDown σ size basedAlignment fuel t.root target =
        some (if target < 0x10000 then .error .noMemory else .ok target)
    | some v => ∃ base, searchDown σ size basedAlignment fuel t.root target = some (.ok base) ∧
        base.toNat = wrappedPlace (σ.startingVpn v).toNat size.toNat := by
  have spine := leftSpine_length t
  have same : ∀ v ∈ leftSpine t, decide (target < (σ.address v).endingVpn ∧
      target + size > σ.startingVpn v) = decide (topPlace size.toNat < σ.last v) := by
    intro v member
    obtain ⟨first, last⟩ := bounds v (leftSpine_subset t v member)
    exact decide_eq_decide.mpr (hits_iff within place first last)
  rcases searchDown_spine size basedAlignment target focus.stored (show _ ≤ fuel by omega) with
    ⟨clear, ended⟩ | ⟨v, rest, found, short, goes⟩
  · have none_ : (leftSpine t).find? (fun v => topPlace size.toNat < σ.last v) = none := by
      rw [find?_eq_none]
      intro v member
      rw [← same v member, decide_eq_true_eq]
      exact clear v member
    rw [none_]
    exact ended
  · rw [find?_congr same] at found
    have member := leftSpine_subset t v (mem_of_find?_eq_some found)
    have hits := find?_some found
    rw [decide_eq_true_eq] at hits
    rw [found]
    obtain ⟨first, last⟩ := bounds v member
    -- the size is larger than the page number that it is subtracted from
    have wraps : (σ.startingVpn v).toNat < size.toNat := by
      rw [topPlace] at hits
      omega
    have base := belowSection_lt size (σ.startingVpn v) wraps
    refine ⟨_, ?_, base⟩
    rw [goes, focus.root_top]
    apply searchDown_high size _ focus bounds _ (by omega)
    rw [base, wrappedPlace]
    omega

/-- An AVL tree has a power of two of nodes for every second level. -/
theorem pow_height_le {t : KeyTree Nat Int} (avl : Avl t) : 2 ^ ((height t).toNat / 2) ≤ t.size + 1 := by
  induction t with
  | nil => decide
  | node l k d r left right =>
    obtain ⟨-, near, far, avlL, avlR⟩ := avl
    have first := left avlL
    have second := right avlR
    have lowL := height_nonneg l
    have lowR := height_nonneg r
    simp only [height, KeyTree.size]
    have half : (1 + max (height l) (height r)).toNat / 2 ≤ (height l).toNat / 2 + 1 ∧
        (1 + max (height l) (height r)).toNat / 2 ≤ (height r).toNat / 2 + 1 := by omega
    have powL := Nat.pow_le_pow_right (show 0 < 2 by decide) half.1
    have powR := Nat.pow_le_pow_right (show 0 < 2 by decide) half.2
    rw [Nat.pow_succ] at powL powR
    omega

theorem balance_le {T : AvlTree Nat} {t : KeyTree Nat Int} (avl : Avl t) (stored : T.Stored up t) :
    ∀ v ∈ t.inorder, 0 ≤ T.balance v ∧ T.balance v ≤ height t := by
  induction t generalizing up with
  | nil => exact fun v => (absurd · not_mem_nil)
  | node l k d r left right =>
    obtain ⟨exact_, -, -, avlL, avlR⟩ := avl
    obtain ⟨-, -, -, data, below, below'⟩ := stored
    have lowL := height_nonneg l
    intro v member
    simp only [KeyTree.inorder, mem_append, mem_cons] at member
    simp only [height]
    rcases member with inL | rfl | inR
    · have := left avlL below v inL
      omega
    · omega
    · have := right avlR below' v inR
      omega

/-- No tree of nodes in 32 bits of memory is so high that a height is no page number. -/
theorem startingVpn_lt (avl : Avl t) (stored : σ.mmSectionBasedTree.Stored up t) (fits : t.size < 0x100000000) :
    ∀ v ∈ t.inorder, (σ.startingVpn v).toNat < 0x100000 := by
  intro v member
  obtain ⟨low, high⟩ := balance_le avl stored v member
  have levels : (height t).toNat / 2 ≤ 32 := by
    by_contra tall
    have pow := Nat.pow_le_pow_right (show 0 < 2 by decide) (show 33 ≤ (height t).toNat / 2 by omega)
    have := pow_height_le avl
    omega
  rw [BasedSections.startingVpn, BitVec.toNat_ofInt]
  omega

end Search

def oneSection (basedAddress endingVpn : BitVec 32) : BasedSections where
  mmSectionBasedTree := ⟨fun _ _ => none, fun _ => none, fun _ => 1, some 0, some 0⟩
  address _ := ⟨basedAddress, endingVpn⟩

/-- The second section hangs on the right of the first. -/
def twoSections : BasedSections where
  mmSectionBasedTree := ⟨fun s v => if s = .right ∧ v = 0 then some 1 else none, fun v => if v = 1 then some 0 else none,
    fun v => if v = 0 then 2 else 1, some 0, some 0⟩
  address v := if v = 0 then ⟨0x7FFC0000, 0x7FFCF⟩ else ⟨0x7FFD0000, 0x7FFDF⟩

end VeaOS.Mm
