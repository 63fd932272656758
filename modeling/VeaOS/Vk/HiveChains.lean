import VeaOS.Vk.HiveSearch

/-! When the lookups in a hive end, and read bytes of it only. -/
namespace VeaOS.Vk
open Foundation Option

section Chain
variable (image : Nat → Byte) (hiveLength : BitVec 32) (layout : NodeLayout) (name : List Byte)

def field16 (offset : Nat) : BitVec 16 := Memory.read16 (fun _ : Nat => image) ⟨0, offset⟩
def field32 (offset : Nat) : BitVec 32 := Memory.read32 (fun _ : Nat => image) ⟨0, offset⟩

/-- The characters of the file are those of a name, up to a zero. -/
def sameText (start : Nat) : List Byte → Bool
  | [] => true
  | c :: rest => image start == c && (c == 0 || sameText (start + 1) rest)

/-- The characters up to the first that differs are in the file. -/
def TextInside (start : Nat) : Prop :=
  ∀ i < name.length, (∀ j < i, image (start + j) = name.getD j 0 ∧ name.getD j 0 ≠ 0) →
    start + i < hiveLength.toNat

def IsNode (c : BitVec 32) : Prop :=
  c ≠ 0 ∧ c < hiveLength ∧ field16 image (c.toNat + 4) = layout.signature

def Named (c : BitVec 32) : Prop :=
  (field16 image (c.toNat + layout.nameLength)).toNat = name.length ∧
    sameText image (c.toNat + layout.name) name = true

instance (c : BitVec 32) : Decidable (IsNode image hiveLength layout c) := inferInstanceAs (Decidable (_ ∧ _))

instance (c : BitVec 32) : Decidable (Named image layout name c) := inferInstanceAs (Decidable (_ ∧ _))

/-- The offset behind a node that does not have the name. -/
def nextNode (c : BitVec 32) : Option (BitVec 32) :=
  if IsNode image hiveLength layout c ∧ ¬ Named image layout name c then
    some (field32 image (c.toNat + layout.next))
  else none

/-- What a lookup reads at an offset is in the file. -/
structure NodeInside (c : BitVec 32) : Prop where
  signature : c ≠ 0 → c < hiveLength → c.toNat + 6 ≤ hiveLength.toNat
  header : IsNode image hiveLength layout c → c.toNat + layout.nameLength + 2 ≤ hiveLength.toNat
  text : IsNode image hiveLength layout c →
    (field16 image (c.toNat + layout.nameLength)).toNat = name.length →
    TextInside image hiveLength name (c.toNat + layout.name)

def chain (parent : Nat) : Nat → Option (BitVec 32) :=
  placesFrom (nextNode image hiveLength layout name) (field32 image (parent + layout.first))

/-- A chain has no offset twice, and what is read of it is in the file. -/
structure ChainSound (parent : Nat) : Prop where
  first : parent + layout.first + 4 ≤ hiveLength.toNat
  once : ∀ i j, i < j → ∀ c, chain image hiveLength layout name parent i = some c →
    chain image hiveLength layout name parent j ≠ some c
  inside : ∀ n c, chain image hiveLength layout name parent n = some c →
    NodeInside image hiveLength layout name c

/-- What a query reads of a value that it finds is in the file. -/
structure ValueInside (dataSize : Option (BitVec 32)) (c : BitVec 32) : Prop where
  header : c.toNat + sizeofFileNode ≤ hiveLength.toNat
  data : ∀ size data, dataSize = some size → size ≠ 0 → valueData image hiveLength ⟨0, c.toNat⟩ = some data →
    data.offset + min size.toNat (field32 image (c.toNat + 16)).toNat ≤ hiveLength.toNat

end Chain

section Reads
variable {image : Nat → Byte} {hiveLength : BitVec 32} {layout : NodeLayout} {name : List Byte}

theorem loader_inside_iff {p : Pointer Nat} {n : Nat} :
    (loaderCells image hiveLength).Inside p n ↔ p.block = 0 ∧ p.offset + n ≤ hiveLength.toNat := by
  simp only [CellSource.Inside, loaderCells, Bool.and_eq_true, beq_iff_eq, decide_eq_true_iff]

theorem inside_iff {start n : Nat} :
    (loaderCells image hiveLength).Inside ⟨0, start⟩ n ↔ start + n ≤ hiveLength.toNat :=
  loader_inside_iff.trans (and_iff_right rfl)

theorem textInside_cons {start : Nat} {c : Byte} {rest : List Byte} :
    TextInside image hiveLength (c :: rest) start ↔ start < hiveLength.toNat ∧
      (image start = c → c ≠ 0 → TextInside image hiveLength rest (start + 1)) := by
  constructor
  · intro inside
    refine ⟨inside 0 (Nat.zero_lt_succ _) (fun j below => absurd below (Nat.not_lt_zero j)), ?_⟩
    intro same text i below before
    have further := inside (i + 1) (Nat.succ_lt_succ below) ?_
    · omega
    · intro j earlier
      cases j with
      | zero => exact ⟨same, text⟩
      | succ j =>
        rw [List.getD_cons_succ, show start + (j + 1) = start + 1 + j by omega]
        exact before j (Nat.lt_of_succ_lt_succ earlier)
  · rintro ⟨first, more⟩ i below before
    cases i with
    | zero => exact first
    | succ i =>
      obtain ⟨same, text⟩ := before 0 (Nat.zero_lt_succ i)
      have further := more same text i (Nat.lt_of_succ_lt_succ below) ?_
      · omega
      · intro j earlier
        have later := before (j + 1) (Nat.succ_lt_succ earlier)
        rw [List.getD_cons_succ, show start + (j + 1) = start + 1 + j by omega] at later
        exact later

theorem compare_inside (start : Nat) (inside : TextInside image hiveLength name start) :
    rtlRawStringCompareN (loaderCells image hiveLength) ⟨0, start⟩ name = some (sameText image start name) := by
  induction name generalizing start with
  | nil => rfl
  | cons c rest ih =>
    obtain ⟨first, more⟩ := textInside_cons.mp inside
    rw [rtlRawStringCompareN, if_neg (not_not.mpr (inside_iff.mpr first)), sameText]
    change (if image start ≠ c ∨ c = 0 then some (image start == c) else _) = _
    by_cases ends : image start ≠ c ∨ c = 0
    · rw [if_pos ends]
      by_cases zero : c = 0
      · simp [zero]
      · simp [ends.resolve_right zero]
    · rw [if_neg ends]
      obtain ⟨same, text⟩ := not_or.mp ends
      have rest := ih (start + 1) (more (not_not.mp same) text)
      simp only [not_not.mp same, beq_self_eq_true, Bool.true_and, beq_eq_false_iff_ne.mpr text, Bool.false_or]
      exact rest

theorem compare_outside (start : Nat) (outside : ¬ TextInside image hiveLength name start) :
    rtlRawStringCompareN (loaderCells image hiveLength) ⟨0, start⟩ name = none := by
  induction name generalizing start with
  | nil => exact absurd (fun i below => absurd below (Nat.not_lt_zero i)) outside
  | cons c rest ih =>
    rw [rtlRawStringCompareN]
    by_cases first : start < hiveLength.toNat
    · rw [if_neg (not_not.mpr (inside_iff.mpr first))]
      change (if image start ≠ c ∨ c = 0 then some (image start == c) else _) = _
      by_cases ends : image start ≠ c ∨ c = 0
      · exact absurd (textInside_cons.mpr ⟨first, fun same text =>
          absurd ends (not_or.mpr ⟨not_not.mpr same, text⟩)⟩) outside
      · rw [if_neg ends]
        exact ih (start + 1) fun more => outside (textInside_cons.mpr ⟨first, fun _ _ => more⟩)
    · rw [if_pos fun inside => first (inside_iff.mp inside)]

end Reads

instance offsets_finite : Finite (BitVec 32) := Finite.of_injective BitVec.toFin BitVec.toFin_injective

section Visits
variable {image : Nat → Byte} {hiveLength : BitVec 32} {layout : NodeLayout} {name : List Byte} {c : BitVec 32}

/-- The link of a node lies before its name's length. -/
def NodeLayout.Linked (layout : NodeLayout) : Prop := layout.next + 4 ≤ layout.nameLength + 2

theorem directoryNode_linked : directoryNode.Linked := show 16 + 4 ≤ 28 + 2 by decide

theorem fileNode_linked : fileNode.Linked := show 6 + 4 ≤ 10 + 2 by decide

theorem loader_cell (zero : c ≠ 0) (within : c < hiveLength) :
    (loaderCells image hiveLength).cell c = some ⟨0, c.toNat⟩ :=
  if_neg (not_or.mpr ⟨zero, BitVec.not_le.mpr within⟩)

theorem visit_header (node : IsNode image hiveLength layout c) (signature : c.toNat + 6 ≤ hiveLength.toNat)
    (header : c.toNat + layout.nameLength + 2 ≤ hiveLength.toNat) :
    visitNode (loaderCells image hiveLength) layout name c =
      match (if (field16 image (c.toNat + layout.nameLength)).toNat = name.length then
          rtlRawStringCompareN (loaderCells image hiveLength) ⟨0, c.toNat + layout.name⟩ name
        else some false) with
      | none => .inl .outside
      | some true => .inl (.found c ⟨0, c.toNat⟩)
      | some false =>
        if ¬ (loaderCells image hiveLength).Inside ⟨0, c.toNat + layout.next⟩ 4 then .inl .outside
        else .inr (field32 image (c.toNat + layout.next)) := by
  obtain ⟨zero, within, right⟩ := node
  simp only [visitNode, if_neg zero, loader_cell zero within]
  have signature : (loaderCells image hiveLength).Inside ⟨0, c.toNat + 4⟩ 2 := inside_iff.mpr signature
  have header : (loaderCells image hiveLength).Inside ⟨0, c.toNat + layout.nameLength⟩ 2 :=
    inside_iff.mpr header
  refine (if_neg (not_not.mpr signature)).trans ((if_neg (not_not.mpr right)).trans ?_)
  exact if_neg (not_not.mpr header)

theorem visit_missing (notNode : ¬ IsNode image hiveLength layout c)
    (inside : NodeInside image hiveLength layout name c) :
    visitNode (loaderCells image hiveLength) layout name c = .inl .missing := by
  by_cases zero : c = 0
  · rw [visitNode, if_pos zero]
  by_cases within : c < hiveLength
  · simp only [visitNode, if_neg zero, loader_cell zero within]
    have wrong : field16 image (c.toNat + 4) ≠ layout.signature := fun right => notNode ⟨zero, within, right⟩
    have signature : (loaderCells image hiveLength).Inside ⟨0, c.toNat + 4⟩ 2 :=
      inside_iff.mpr (inside.signature zero within)
    exact (if_neg (not_not.mpr signature)).trans (if_pos wrong)
  · have absent : (loaderCells image hiveLength).cell c = none := if_pos (Or.inr (BitVec.not_lt.mp within))
    simp only [visitNode, if_neg zero, absent]

theorem visit_found (node : IsNode image hiveLength layout c) (named : Named image layout name c)
    (inside : NodeInside image hiveLength layout name c) :
    visitNode (loaderCells image hiveLength) layout name c = .inl (.found c ⟨0, c.toNat⟩) := by
  rw [visit_header node (inside.signature node.1 node.2.1) (inside.header node), if_pos named.1,
    compare_inside _ (inside.text node named.1), named.2]

theorem visit_next (linked : layout.Linked) (node : IsNode image hiveLength layout c)
    (other : ¬ Named image layout name c) (inside : NodeInside image hiveLength layout name c) :
    visitNode (loaderCells image hiveLength) layout name c = .inr (field32 image (c.toNat + layout.next)) := by
  have header := inside.header node
  rw [visit_header node (inside.signature node.1 node.2.1) header]
  have differs : (if (field16 image (c.toNat + layout.nameLength)).toNat = name.length then
      rtlRawStringCompareN (loaderCells image hiveLength) ⟨0, c.toNat + layout.name⟩ name
      else some false) = some false := by
    split
    next long =>
      rw [compare_inside _ (inside.text node long)]
      exact congrArg some (Bool.eq_false_of_not_eq_true fun same => other ⟨long, same⟩)
    next => rfl
  rw [differs]
  refine if_neg (not_not.mpr (inside_iff.mpr ?_))
  rw [NodeLayout.Linked] at linked
  omega

theorem visit_outside (outside : ¬ NodeInside image hiveLength layout name c) :
    visitNode (loaderCells image hiveLength) layout name c = .inl .outside := by
  by_cases cell : c ≠ 0 ∧ c < hiveLength
  case neg =>
    exact absurd ⟨fun zero within => absurd ⟨zero, within⟩ cell, fun node => absurd ⟨node.1, node.2.1⟩ cell,
      fun node => absurd ⟨node.1, node.2.1⟩ cell⟩ outside
  obtain ⟨zero, within⟩ := cell
  by_cases signature : c.toNat + 6 ≤ hiveLength.toNat
  case neg =>
    simp only [visitNode, if_neg zero, loader_cell zero within]
    have beyond : ¬ (loaderCells image hiveLength).Inside ⟨0, c.toNat + 4⟩ 2 := by
      rwa [inside_iff, Nat.add_assoc]
    exact if_pos beyond
  by_cases node : IsNode image hiveLength layout c
  case neg =>
    exact absurd ⟨fun _ _ => signature, fun right => absurd right node, fun right => absurd right node⟩ outside
  by_cases header : c.toNat + layout.nameLength + 2 ≤ hiveLength.toNat
  case neg =>
    simp only [visitNode, if_neg zero, loader_cell zero within]
    have signature : (loaderCells image hiveLength).Inside ⟨0, c.toNat + 4⟩ 2 := inside_iff.mpr signature
    refine (if_neg (not_not.mpr signature)).trans ((if_neg (not_not.mpr node.2.2)).trans ?_)
    have beyond : ¬ (loaderCells image hiveLength).Inside ⟨0, c.toNat + layout.nameLength⟩ 2 :=
      fun inside => header (inside_iff.mp inside)
    exact if_pos beyond
  by_cases long : (field16 image (c.toNat + layout.nameLength)).toNat = name.length
  case neg => exact absurd ⟨fun _ _ => signature, fun _ => header, fun _ same => absurd same long⟩ outside
  by_cases text : TextInside image hiveLength name (c.toNat + layout.name)
  case pos => exact absurd ⟨fun _ _ => signature, fun _ => header, fun _ _ => text⟩ outside
  rw [visit_header node signature header, if_pos long, compare_outside _ text]

theorem findNode_iff (linked : layout.Linked) (allowed : Lookup → Prop) (missing : allowed .missing)
    (outside : ¬ allowed .outside) (parent : Nat) :
    (∃ visits result, findNode (loaderCells image hiveLength) layout ⟨0, parent⟩ name visits = some result ∧
      allowed result) ↔
    ChainSound image hiveLength layout name parent ∧
      ∀ n c, chain image hiveLength layout name parent n = some c → IsNode image hiveLength layout c →
        Named image layout name c → allowed (.found c ⟨0, c.toNat⟩) := by
  by_cases first : parent + layout.first + 4 ≤ hiveLength.toNat
  case neg =>
    constructor
    · rintro ⟨visits, result, found, right⟩
      have refused : findNode (loaderCells image hiveLength) layout ⟨0, parent⟩ name visits = some .outside :=
        if_pos (fun inside => first (inside_iff.mp inside) :
          ¬ (loaderCells image hiveLength).Inside ⟨0, parent + layout.first⟩ 4)
      exact absurd (some.inj (refused.symm.trans found) ▸ right) outside
    · exact fun sound => absurd sound.1.first first
  have started (visits : Nat) : findNode (loaderCells image hiveLength) layout ⟨0, parent⟩ name visits =
      search (visitNode (loaderCells image hiveLength) layout name) visits
        (field32 image (parent + layout.first)) := by
    have inside : (loaderCells image hiveLength).Inside ⟨0, parent + layout.first⟩ 4 := inside_iff.mpr first
    exact if_neg (not_not.mpr inside)
  simp only [started]
  have links (c : BitVec 32) (inside : NodeInside image hiveLength layout name c) :
      goesOnTo (visitNode (loaderCells image hiveLength) layout name) c =
        nextNode image hiveLength layout name c := by
    rw [nextNode]
    by_cases node : IsNode image hiveLength layout c
    · by_cases named : Named image layout name c
      · rw [if_neg fun goes => goes.2 named, goesOnTo_none (visit_found node named inside)]
      · rw [if_pos ⟨node, named⟩, goesOnTo_some.mpr (visit_next linked node named inside)]
    · rw [if_neg fun goes => node goes.1, goesOnTo_none (visit_missing node inside)]
  rw [@search_ends_good_iff _ _ _ _ _ _ (fun c => NodeInside image hiveLength layout name c ∧
    (IsNode image hiveLength layout c → Named image layout name c → allowed (.found c ⟨0, c.toNat⟩))) allowed
    (fun c good => links c good.1) ?_ ?_]
  · exact ⟨fun ⟨once, good⟩ => ⟨⟨first, once, fun n c reached => (good n c reached).1⟩,
      fun n c reached => (good n c reached).2⟩,
      fun ⟨sound, found⟩ => ⟨sound.once, fun n c reached => ⟨sound.inside n c reached, found n c reached⟩⟩⟩
  · rintro c result ⟨inside, found⟩ visited
    by_cases node : IsNode image hiveLength layout c
    · by_cases named : Named image layout name c
      · rw [visit_found node named inside] at visited
        exact Sum.inl.inj visited ▸ found node named
      · rw [visit_next linked node named inside] at visited
        cases visited
    · rw [visit_missing node inside] at visited
      exact Sum.inl.inj visited ▸ missing
  · intro c bad
    by_cases inside : NodeInside image hiveLength layout name c
    · obtain ⟨node, named, refused⟩ : IsNode image hiveLength layout c ∧ Named image layout name c ∧
          ¬ allowed (.found c ⟨0, c.toNat⟩) := by
        by_contra unfound
        exact bad ⟨inside, fun node named => not_not.mp fun refused => unfound ⟨node, named, refused⟩⟩
      exact ⟨_, visit_found node named inside, refused⟩
    · exact ⟨_, visit_outside inside, outside⟩

end Visits
section Agreement
variable {S S' : CellSource} {layout : NodeLayout}

/-- Two sources with the same cells and the same bytes of the hive. -/
structure CellSource.Agrees (S S' : CellSource) : Prop where
  holds : S.holds = S'.holds
  cell : S.cell = S'.cell
  bytes : ∀ p n, S.Inside p n → ∀ block i, p.Spans n block i → S.memory block i = S'.memory block i

namespace CellSource.Agrees
variable (agrees : S.Agrees S') {p : Pointer Nat}
include agrees

theorem inside_iff : S.Inside p n ↔ S'.Inside p n := by
  rw [Inside, Inside, agrees.holds]

theorem compare_eq (name : List Byte) : rtlRawStringCompareN S p name = rtlRawStringCompareN S' p name := by
  induction name generalizing p with
  | nil => rfl
  | cons c rest ih =>
    rw [rtlRawStringCompareN, rtlRawStringCompareN]
    by_cases inside : S.Inside p 1
    · have same := agrees.bytes p 1 inside p.block p.offset ⟨rfl, Nat.le_refl _, Nat.lt_succ_self _⟩
      rw [if_neg (not_not.mpr inside), if_neg (not_not.mpr (agrees.inside_iff.mp inside)), same, ih]
    · rw [if_pos inside, if_pos (mt agrees.inside_iff.mpr inside)]

theorem visit_eq (name : List Byte) (c : BitVec 32) : visitNode S layout name c = visitNode S' layout name c := by
  rw [visitNode, visitNode, agrees.cell]
  by_cases zero : c = 0
  · rw [if_pos zero, if_pos zero]
  rw [if_neg zero, if_neg zero]
  cases S'.cell c with
  | none => rfl
  | some node =>
    dsimp only
    by_cases signature : S.Inside (node.add 4) 2
    case neg => rw [if_pos signature, if_pos (mt agrees.inside_iff.mpr signature)]
    rw [if_neg (not_not.mpr signature), if_neg (not_not.mpr (agrees.inside_iff.mp signature)),
      Memory.read16_congr (agrees.bytes _ _ signature)]
    by_cases header : S.Inside (node.add layout.nameLength) 2
    case neg => rw [if_pos header, if_pos (mt agrees.inside_iff.mpr header)]
    rw [if_neg (not_not.mpr header), if_neg (not_not.mpr (agrees.inside_iff.mp header)),
      Memory.read16_congr (agrees.bytes _ _ header), agrees.compare_eq]
    by_cases link : S.Inside (node.add layout.next) 4
    · rw [if_neg (not_not.mpr link), if_neg (not_not.mpr (agrees.inside_iff.mp link)),
        Memory.read32_congr (agrees.bytes _ _ link)]
    · rw [if_pos link, if_pos (mt agrees.inside_iff.mpr link)]

theorem findNode_eq (name : List Byte) (visits : Nat) :
    findNode S layout p name visits = findNode S' layout p name visits := by
  have same : visitNode S layout name = visitNode S' layout name := funext (agrees.visit_eq name)
  rw [findNode, findNode, same]
  by_cases first : S.Inside (p.add layout.first) 4
  · rw [if_neg (not_not.mpr first), if_neg (not_not.mpr (agrees.inside_iff.mp first)),
      Memory.read32_congr (agrees.bytes _ _ first)]
  · rw [if_pos first, if_pos (mt agrees.inside_iff.mpr first)]

end CellSource.Agrees

variable {image : Nat → Byte} {hiveLength : BitVec 32} {pool : Memory Nat} {pooled : Bool} {H : Hive}

/-- What is checked of a hive that is accepted, and what it is loaded as. -/
structure Accepted (image : Nat → Byte) (hiveLength : BitVec 32) (H : Hive) : Prop where
  signature : field32 image 0 = keyHeaderSig
  sequence : field32 image 4 = field32 image 8
  bin : field32 image 0x1000 = keyBinSig
  root : field16 image (0x1000 + sizeofBaseBlock + 4) = keyDirSig
  range : hiveLength.toNat ≤ poolRange
  length : H.length = hiveLength
  bytes : ∀ i < hiveLength.toNat, H.memory 0 i = image i
  stable : H.stableBins = [⟨0, hiveLength, 0⟩]
  noVolatile : H.volatileBins = []

theorem accepted_spec (accepted : vkpInitializeSystemHive image hiveLength pool pooled = some H) :
    Accepted image hiveLength H := by
  simp only [vkpInitializeSystemHive] at accepted
  split at accepted
  next => cases accepted
  next signature =>
    split at accepted
    next => cases accepted
    next sequence =>
      split at accepted
      next => cases accepted
      next bin =>
        split at accepted
        next => cases accepted
        next range =>
          split at accepted
          next => cases accepted
          next root =>
            obtain rfl := some.inj accepted
            exact ⟨not_not.mp signature, not_not.mp sequence, not_not.mp bin, not_not.mp root,
              Nat.le_of_not_lt fun long => range (Or.inl long), rfl, fun i below => if_pos ⟨rfl, below⟩, rfl, rfl⟩

theorem kernel_agrees (accepted : Accepted image hiveLength H) :
    (kernelCells H).Agrees (loaderCells image hiveLength) := by
  have holds (p : Pointer Nat) (n : Nat) : H.holds p n = (loaderCells image hiveLength).holds p n := by
    rw [Hive.holds, accepted.stable, accepted.noVolatile]
    simp only [List.any_cons, List.any_nil, Bool.or_false, loaderCells, BEq.comm (a := 0)]
  refine ⟨funext fun p => funext (holds p), funext fun c => ?_, ?_⟩
  rotate_left
  · rintro p n inside block i ⟨rfl, _, below⟩
    have inside : (loaderCells image hiveLength).holds p n = true := (holds p n).symm.trans inside
    simp only [loaderCells, Bool.and_eq_true, beq_iff_eq, decide_eq_true_iff] at inside
    rw [inside.1]
    exact accepted.bytes i (by omega)
  have range := accepted.range
  rw [poolRange] at range
  change vkpGetCellPointer H c = lvkGetCellPointer hiveLength c
  rw [lvkGetCellPointer]
  by_cases zero : c = 0
  · rw [if_pos (Or.inl zero), vkpGetCellPointer, if_pos zero]
  by_cases stable : c.toNat < 0x80000000
  · rw [stable_pointer zero stable, accepted.stable]
    have small : (0 : BitVec 32).toNat + hiveLength.toNat ≤ 0x80000000 := by
      rw [show (0 : BitVec 32).toNat = 0 from rfl]
      omega
    have contains : StableBin.contains ⟨0, hiveLength, 0⟩ c = true ↔ c < hiveLength := by
      rw [Chained.contains_iff small, BitVec.lt_def]
      change 0 ≤ _ ∧ _ < 0 + _ ↔ _
      rw [Nat.zero_add]
      exact and_iff_right (Nat.zero_le _)
    rw [List.find?_singleton]
    by_cases within : c < hiveLength
    · rw [if_pos (contains.mpr within), if_neg (not_or.mpr ⟨zero, BitVec.not_le.mpr within⟩),
        map_some]
      exact congrArg (fun offset : BitVec 32 => some (⟨0, offset.toNat⟩ : Pointer Nat)) (BitVec.sub_zero c)
    · rw [if_neg (fun there => within (contains.mp there)), if_pos (Or.inr (BitVec.not_lt.mp within))]
      rfl
  · have beyond : hiveLength ≤ c := by
      rw [BitVec.le_def]
      omega
    have isVolatile : vkIsVolatileOffset c = true := volatile_iff.mpr (Nat.le_of_not_lt stable)
    rw [if_pos (Or.inr beyond), vkpGetCellPointer, if_neg zero]
    simp only [isVolatile, if_true, accepted.noVolatile, List.getElem?_nil, map_none]

theorem parser_ready (accepted : Accepted image hiveLength H) :
    lvkInitializeLoaderParser image hiveLength = false ↔ hiveLength = 0 := by
  have checked : lvkInitializeLoaderParser image hiveLength = (hiveLength != 0) := by
    obtain ⟨signature, sequence, bin, root, -⟩ := accepted
    have signature : Memory.read32 (fun _ : Unit => image) ⟨(), 0⟩ = keyHeaderSig := signature
    have sequence : Memory.read32 (fun _ : Unit => image) ⟨(), 4⟩ =
      Memory.read32 (fun _ : Unit => image) ⟨(), 8⟩ := sequence
    have bin : Memory.read32 (fun _ : Unit => image) ⟨(), 0x1000⟩ = keyBinSig := bin
    have root : Memory.read16 (fun _ : Unit => image) ⟨(), 0x1000 + sizeofBaseBlock + 4⟩ = keyDirSig := root
    simp only [lvkInitializeLoaderParser, signature, sequence, bin, root, beq_self_eq_true, Bool.and_true]
  rw [checked, bne_eq_false_iff_eq]

end Agreement

section Query
variable {image : Nat → Byte} {hiveLength : BitVec 32} {name : List Byte}

theorem valueData_block {node data : Pointer Nat} (node_block : node.block = 0)
    (given : valueData image hiveLength node = some data) : data.block = 0 := by
  simp only [valueData] at given
  split at given
  next => exact some.inj given ▸ node_block
  next =>
    obtain ⟨cell, found, rfl⟩ := map_eq_some_iff.mp given
    rw [lvkGetCellPointer] at found
    split at found
    next => cases found
    next => exact some.inj found ▸ rfl

theorem bytesToCopy_toNat (dataSize dataLength : BitVec 32) :
    (if dataSize < dataLength then dataSize else dataLength).toNat = min dataSize.toNat dataLength.toNat := by
  split
  next less =>
    rw [BitVec.lt_def] at less
    omega
  next less =>
    rw [BitVec.lt_def] at less
    omega

theorem readValue_inside_iff (c : BitVec 32) (dataSize : Option (BitVec 32)) :
    readValue image hiveLength ⟨0, c.toNat⟩ dataSize ≠ .outside ↔ ValueInside image hiveLength dataSize c := by
  simp only [readValue]
  by_cases header : (loaderCells image hiveLength).Inside ⟨0, c.toNat⟩ sizeofFileNode
  case neg =>
    rw [if_pos header]
    exact ⟨fun wrong => absurd rfl wrong, fun inside => absurd (inside_iff.mpr inside.header) header⟩
  rw [if_neg (not_not.mpr header)]
  have header := inside_iff.mp header
  cases given : valueData image hiveLength ⟨0, c.toNat⟩ with
  | none => exact ⟨fun _ => ⟨header, fun size data _ _ found => by cases given.symm.trans found⟩, fun _ => nofun⟩
  | some data =>
    cases dataSize with
    | none => exact ⟨fun _ => ⟨header, nofun⟩, fun _ => nofun⟩
    | some size =>
      dsimp only
      by_cases empty : size = 0
      · rw [if_pos empty]
        refine ⟨fun _ => ⟨header, fun size' _ same nonempty _ => ?_⟩, fun _ => nofun⟩
        exact absurd (some.inj same ▸ empty) nonempty
      rw [if_neg empty]
      have block : data.block = 0 := valueData_block rfl given
      have copied := bytesToCopy_toNat size (field32 image (c.toNat + 16))
      by_cases within : (loaderCells image hiveLength).Inside data
          (if size < field32 image (c.toNat + 16) then size else field32 image (c.toNat + 16)).toNat
      · refine ⟨fun _ => ⟨header, fun size' data' same _ found => ?_⟩, fun _ => ?_⟩
        · obtain rfl := some.inj same
          obtain rfl := some.inj (given.symm.trans found)
          exact copied ▸ (loader_inside_iff.mp within).2
        · exact fun read => absurd ((if_neg (not_not.mpr within)).symm.trans read) nofun
      · refine ⟨fun wrong => absurd (if_pos within) wrong, fun inside => ?_⟩
        refine absurd (loader_inside_iff.mpr ⟨block, ?_⟩) within
        rw [copied]
        exact inside.data size data rfl empty given

end Query

/-- A lookup comes to an end, and does not read outside of the hive. -/
def EndsInside (outside : ρ) (lookup : Nat → Option ρ) : Prop :=
  ∃ visits result, lookup visits = some result ∧ result ≠ outside

theorem endsInside_unless_empty {lookup : Nat → Option Lookup} {name : List Byte}
    (ends : EndsInside .outside lookup ↔ sound) :
    EndsInside .outside (fun visits => if name.length = 0 then some .missing else lookup visits) ↔
      name = [] ∨ sound := by
  by_cases empty : name.length = 0
  · simp only [empty, if_true]
    exact ⟨fun _ => Or.inl (List.length_eq_zero_iff.mp empty), fun _ => ⟨0, .missing, rfl, nofun⟩⟩
  · simp only [empty, if_false]
    rw [ends, or_iff_right fun same => empty (List.length_eq_zero_iff.mpr same)]

theorem findNode_endsInside {image : Nat → Byte} {hiveLength : BitVec 32} {layout : NodeLayout}
    (linked : layout.Linked) (parent : Nat) (name : List Byte) :
    EndsInside .outside (findNode (loaderCells image hiveLength) layout ⟨0, parent⟩ name) ↔
      ChainSound image hiveLength layout name parent := by
  rw [EndsInside, findNode_iff linked (· ≠ .outside) nofun (not_not.mpr rfl)]
  exact and_iff_left fun n c _ _ _ => nofun

/-- The lookups of the kernel and of the loader end inside of a hive just where the chains of offsets
that they follow do. -/
theorem lookups_end_inside_iff {image : Nat → Byte} {hiveLength : BitVec 32} {pool : Memory Nat} {pooled : Bool}
    {H : Hive} (accepted : vkpInitializeSystemHive image hiveLength pool pooled = some H)
    (parent : Nat) (name : List Byte) (dataSize : Option (BitVec 32)) :
    (EndsInside .outside (vkpFindSubkey H ⟨0, parent⟩ name) ↔
      name = [] ∨ ChainSound image hiveLength directoryNode name parent) ∧
    (EndsInside .outside (vkpFindValueNode H ⟨0, parent⟩ name) ↔
      name = [] ∨ ChainSound image hiveLength fileNode name parent) ∧
    (EndsInside .outside (lvkFindSubkey image hiveLength ⟨0, parent⟩ name) ↔
      ChainSound image hiveLength directoryNode (rawString name) parent) ∧
    (EndsInside .outside (lvkQueryValueKey image hiveLength ⟨0, parent⟩ name dataSize) ↔
      hiveLength = 0 ∨ ChainSound image hiveLength fileNode (rawString name) parent ∧
        ∀ n c, chain image hiveLength fileNode (rawString name) parent n = some c →
          IsNode image hiveLength fileNode c → Named image fileNode (rawString name) c →
          ValueInside image hiveLength dataSize c) := by
  have accepted := accepted_spec accepted
  have agrees := kernel_agrees accepted
  refine ⟨?_, ?_, findNode_endsInside directoryNode_linked parent _, ?_⟩
  · refine Iff.trans ?_ (endsInside_unless_empty (findNode_endsInside directoryNode_linked parent name))
    simp only [EndsInside, vkpFindSubkey, agrees.findNode_eq]
  · refine Iff.trans ?_ (endsInside_unless_empty (findNode_endsInside fileNode_linked parent name))
    simp only [EndsInside, vkpFindValueNode, agrees.findNode_eq]
  · by_cases ready : lvkInitializeLoaderParser image hiveLength = false
    · refine ⟨fun _ => Or.inl ((parser_ready accepted).mp ready), fun _ => ⟨0, _, if_pos ready, nofun⟩⟩
    rw [or_iff_right fun empty => ready ((parser_ready accepted).mpr empty)]
    have found := @findNode_iff image hiveLength _ (rawString name) fileNode_linked
      (fun result => answerOf image hiveLength dataSize result ≠ .outside) nofun (not_not.mpr rfl) parent
    simp only [answerOf, readValue_inside_iff] at found
    rw [← found]
    constructor
    · rintro ⟨visits, result, given, right⟩
      rw [lvkQueryValueKey, if_neg ready] at given
      obtain ⟨result, found, rfl⟩ := map_eq_some_iff.mp given
      exact ⟨visits, result, found, right⟩
    · rintro ⟨visits, result, given, right⟩
      refine ⟨visits, answerOf image hiveLength dataSize result, ?_, right⟩
      rw [lvkQueryValueKey, if_neg ready, lvkFindValueNode, given, map_some]

theorem chainSound_of_end {image : Nat → Byte} {hiveLength : BitVec 32} {layout : NodeLayout} {name : List Byte}
    {parent : Nat} (first : parent + layout.first + 4 ≤ hiveLength.toNat)
    (ends : nextNode image hiveLength layout name (field32 image (parent + layout.first)) = none)
    (inside : NodeInside image hiveLength layout name (field32 image (parent + layout.first))) :
    ChainSound image hiveLength layout name parent ∧
      ∀ n c, chain image hiveLength layout name parent n = some c → c = field32 image (parent + layout.first) := by
  have only (n : Nat) : chain image hiveLength layout name parent (n + 1) = none :=
    placesFrom_ended (m := 1) (by rw [placesFrom, placesFrom, bind_some, ends]) (Nat.le_add_left 1 n)
  have alone (n : Nat) (c : BitVec 32) (reached : chain image hiveLength layout name parent n = some c) :
      c = field32 image (parent + layout.first) := by
    cases n with
    | zero => exact (some.inj reached).symm
    | succ n => cases (only n).symm.trans reached
  refine ⟨⟨first, fun i j before c _ second => ?_, fun n c reached => alone n c reached ▸ inside⟩, alone⟩
  obtain ⟨j, rfl⟩ := Nat.exists_eq_add_one_of_ne_zero (Nat.ne_zero_of_lt before)
  cases (only j).symm.trans second

/-- A hive whose root has one subkey, with the name of one letter; the subkey is its own sibling. -/
def siblingImage : Nat → Byte :=
  (((((((Memory.write32 (fun (_ : Unit) _ => 0) ⟨(), 0⟩ keyHeaderSig).write32 ⟨(), 0x1000⟩
    keyBinSig).write16 ⟨(), 0x101C⟩ keyDirSig).write32 ⟨(), 0x1024⟩ 0x1040).write16 ⟨(), 0x1044⟩
    keyDirSig).write32 ⟨(), 0x1050⟩ 0x1040).write16 ⟨(), 0x105C⟩ 1).writeBytes ⟨(), 0x105E⟩ [0x61] ()

def siblingHive : Option Hive := vkpInitializeSystemHive siblingImage 0x2000 (fun _ _ => 0) true

theorem siblingHive_loads : siblingHive.isSome = true := by decide

/-- The subkey is found. -/
theorem lookups_end_inside_found : ∃ H, siblingHive = some H ∧
    EndsInside .outside (vkpFindSubkey H ⟨0, 0x1018⟩ [0x61]) ∧
    EndsInside .outside (vkpFindValueNode H ⟨0, 0x1018⟩ [0x61]) ∧
    EndsInside .outside (lvkFindSubkey siblingImage 0x2000 ⟨0, 0x1018⟩ [0x61]) ∧
    EndsInside .outside (lvkQueryValueKey siblingImage 0x2000 ⟨0, 0x1018⟩ [0x61] (some 4)) := by
  obtain ⟨H, accepted⟩ := isSome_iff_exists.mp siblingHive_loads
  obtain ⟨subkey, value, loaderSubkey, query⟩ := lookups_end_inside_iff accepted 0x1018 [0x61] (some 4)
  have node : NodeInside siblingImage 0x2000 directoryNode [0x61] 0x1040 :=
    ⟨fun _ _ => by decide, fun _ => by decide, fun _ _ i below _ => by
      have zero : i = 0 := Nat.lt_one_iff.mp below
      rw [zero]
      decide⟩
  have noValue : NodeInside siblingImage 0x2000 fileNode [0x61] 0 :=
    ⟨fun nonzero => absurd rfl nonzero, fun node => absurd rfl node.1, fun node => absurd rfl node.1⟩
  have subkeys : field32 siblingImage (0x1018 + directoryNode.first) = 0x1040 := by decide
  have values : field32 siblingImage (0x1018 + fileNode.first) = 0 := by decide
  have directories : ChainSound siblingImage 0x2000 directoryNode [0x61] 0x1018 :=
    (chainSound_of_end (by decide) (by decide) (subkeys ▸ node)).1
  have files := @chainSound_of_end siblingImage 0x2000 fileNode [0x61] 0x1018 (by decide) (by decide)
    (values ▸ noValue)
  refine ⟨H, accepted, subkey.mpr (Or.inr directories), value.mpr (Or.inr files.1), loaderSubkey.mpr directories,
    query.mpr (Or.inr ⟨files.1, fun n c reached node => ?_⟩)⟩
  exact absurd ((files.2 n c reached).trans values) node.1

/-- Any other name of a subkey is looked for without end. -/
theorem lookup_endless : ∃ H, siblingHive = some H ∧
    (∀ visits, vkpFindSubkey H ⟨0, 0x1018⟩ [0x62] visits = none) ∧
    ¬ EndsInside .outside (vkpFindSubkey H ⟨0, 0x1018⟩ [0x62]) := by
  obtain ⟨H, accepted⟩ := isSome_iff_exists.mp siblingHive_loads
  have agrees := kernel_agrees (accepted_spec accepted)
  have node : IsNode siblingImage 0x2000 directoryNode 0x1040 := by decide
  have other : ¬ Named siblingImage directoryNode [0x62] 0x1040 := by decide
  have inside : NodeInside siblingImage 0x2000 directoryNode [0x62] 0x1040 :=
    ⟨fun _ _ => by decide, fun _ => by decide, fun _ _ i below _ => by
      have zero : i = 0 := Nat.lt_one_iff.mp below
      rw [zero]
      decide⟩
  have stays : visitNode (loaderCells siblingImage 0x2000) directoryNode [0x62] 0x1040 = .inr 0x1040 := by
    rw [visit_next directoryNode_linked node other inside]
    exact congrArg Sum.inr (by decide)
  have endless (visits : Nat) : vkpFindSubkey H ⟨0, 0x1018⟩ [0x62] visits = none := by
    have named : ([0x62] : List Byte).length ≠ 0 := Nat.one_ne_zero
    rw [vkpFindSubkey, if_neg named, agrees.findNode_eq, findNode, if_neg (by decide)]
    have first : (loaderCells siblingImage 0x2000).memory.read32
        ((⟨0, 0x1018⟩ : Pointer Nat).add directoryNode.first) = 0x1040 := by decide
    rw [first]
    exact search_stays stays visits
  refine ⟨H, accepted, endless, fun ⟨visits, result, given, _⟩ => ?_⟩
  cases (endless visits).symm.trans given

end VeaOS.Vk
