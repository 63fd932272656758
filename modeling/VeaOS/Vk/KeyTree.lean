import Mathlib.Data.List.Find
import VeaOS.Foundation.NamedTree
import VeaOS.Vk.HiveSearch

/-! Hives whose keys form a tree, and what the lookups find in them. -/
namespace VeaOS.Vk
open Foundation List

def Chain (next : BitVec 32 → BitVec 32) : BitVec 32 → List (BitVec 32) → Prop
  | first, [] => first = 0
  | first, c :: rest => first = c ∧ Chain next (next c) rest

section Nodes
variable (H : Hive) (layout : NodeLayout) (c : BitVec 32)

def cellOf : Pointer Nat := (vkpGetCellPointer H c).getD ⟨0, 0⟩

def nodeField (offset : Nat) : BitVec 32 := H.memory.read32 ((cellOf H c).add offset)

def nameAt (node : Pointer Nat) : List Byte :=
  H.memory.readBytes (node.add layout.name) (H.memory.read16 (node.add layout.nameLength)).toNat

def nodeName : List Byte := nameAt H layout (cellOf H c)

structure NodeAt : Prop where
  nonzero : c ≠ 0
  cell : vkpGetCellPointer H c = some (cellOf H c)
  signature : H.memory.read16 ((cellOf H c).add 4) = layout.signature
  whole : (kernelCells H).Inside (cellOf H c) (layout.name + (nodeName H layout c).length)

end Nodes

/-- The fields of a node come before its name. -/
structure NodeLayout.Headed (layout : NodeLayout) : Prop where
  signature : 4 + 2 ≤ layout.name
  next : layout.next + 4 ≤ layout.name
  nameLength : layout.nameLength + 2 ≤ layout.name

theorem directoryNode_headed : directoryNode.Headed := ⟨by decide, by decide, by decide⟩

section Search
variable {H : Hive} {layout : NodeLayout} {name : List Byte} {c : BitVec 32}

theorem inside_add {p : Pointer Nat} (inside : (kernelCells H).Inside p n) (within : k + l ≤ n) :
    (kernelCells H).Inside (p.add k) l := by
  simp only [CellSource.Inside, kernelCells, Hive.holds, Bool.or_eq_true, any_eq_true, Bool.and_eq_true,
    decide_eq_true_eq, Pointer.add_block, Pointer.add_offset] at inside ⊢
  refine inside.imp ?_ ?_
  · rintro ⟨bin, member, same, fits⟩
    exact ⟨bin, member, same, decide_eq_true (by omega)⟩
  · rintro ⟨bin, member, same, fits⟩
    exact ⟨bin, member, same, decide_eq_true (by omega)⟩

theorem compare_readBytes {S : CellSource} {p : Pointer Nat} (plain : ∀ b ∈ name, b ≠ 0)
    (inside : ∀ i < name.length, S.Inside (p.add i) 1) :
    rtlRawStringCompareN S p name = some (decide (S.memory.readBytes p name.length = name)) := by
  induction name generalizing p with
  | nil => rfl
  | cons b rest ih =>
    have here : S.Inside p 1 := inside 0 (Nat.zero_lt_succ _)
    have bytes : S.memory.readBytes p (b :: rest).length =
        S.memory p.block p.offset :: S.memory.readBytes (p.add 1) rest.length := by
      rw [Memory.readBytes, Memory.readBytes, length_cons, range_succ_eq_map, map_cons,
        map_map, Nat.add_zero]
      refine congrArg _ (map_congr_left fun i _ => ?_)
      rw [Function.comp_apply, Pointer.add_block, Pointer.add_offset, Nat.add_assoc, Nat.add_comm 1 i]
    have later := ih (p := p.add 1) (fun d member => plain d (mem_cons_of_mem _ member)) fun i below => by
      have at_i := inside (i + 1) (Nat.succ_lt_succ below)
      rwa [Pointer.add, Nat.add_comm i 1, ← Nat.add_assoc] at at_i
    rw [rtlRawStringCompareN, if_neg (not_not.mpr here), bytes]
    have nonzero : b ≠ 0 := plain b mem_cons_self
    by_cases same : S.memory p.block p.offset = b
    · rw [if_neg (not_or.mpr ⟨not_not.mpr same, nonzero⟩), later, same]
      simp only [cons.injEq, true_and]
    · rw [if_pos (Or.inl same), beq_eq_false_iff_ne.mpr same]
      simp only [cons.injEq, same, false_and, decide_false]

theorem visit_at (node : NodeAt H layout c) (headed : layout.Headed) (plain : ∀ b ∈ name, b ≠ 0) :
    visitNode (kernelCells H) layout name c =
      if nodeName H layout c = name then .inl (.found c (cellOf H c)) else .inr (nodeField H c layout.next) := by
  have inside {k l : Nat} (within : k + l ≤ layout.name) : (kernelCells H).Inside ((cellOf H c).add k) l :=
    inside_add node.whole (within.trans (Nat.le_add_right _ _))
  have cell : (kernelCells H).cell c = some (cellOf H c) := node.cell
  simp only [visitNode, if_neg node.nonzero, cell]
  have signature : (kernelCells H).memory.read16 ((cellOf H c).add 4) = layout.signature := node.signature
  rw [if_neg (not_not.mpr (inside headed.signature)), if_neg (not_not.mpr signature),
    if_neg (not_not.mpr (inside headed.nameLength)), if_neg (not_not.mpr (inside headed.next))]
  have long : (nodeName H layout c).length = (H.memory.read16 ((cellOf H c).add layout.nameLength)).toNat :=
    Memory.readBytes_length _
  have compared : (if ((kernelCells H).memory.read16 ((cellOf H c).add layout.nameLength)).toNat = name.length then
      rtlRawStringCompareN (kernelCells H) ((cellOf H c).add layout.name) name else some false) =
      some (decide (nodeName H layout c = name)) := by
    change (if (H.memory.read16 _).toNat = name.length then _ else _) = _
    rw [← long]
    by_cases same : (nodeName H layout c).length = name.length
    · rw [if_pos same, compare_readBytes plain fun i below => ?_]
      · rw [nodeName, nameAt, ← long, same]
        rfl
      · refine inside_add (inside_add node.whole (Nat.le_refl _)) ?_
        omega
    · rw [if_neg same, decide_eq_false fun equal => same (congrArg length equal)]
  rw [compared]
  by_cases named : nodeName H layout c = name
  · rw [if_pos named, decide_eq_true named]
  · rw [if_neg named, decide_eq_false named]
    rfl

theorem search_chain {nodes : List (BitVec 32)} {first : BitVec 32}
    (chained : Chain (nodeField H · layout.next) first nodes) (whole : ∀ c ∈ nodes, NodeAt H layout c)
    (headed : layout.Headed) (plain : ∀ b ∈ name, b ≠ 0) (enough : nodes.length < visits) :
    search (visitNode (kernelCells H) layout name) visits first =
      some (match nodes.find? fun c => nodeName H layout c = name with
        | some c => .found c (cellOf H c)
        | none => .missing) := by
  induction nodes generalizing first visits with
  | nil =>
    obtain ⟨visits, rfl⟩ := Nat.exists_eq_add_one_of_ne_zero (Nat.ne_zero_of_lt enough)
    rw [search, show first = 0 from chained, visitNode, if_pos rfl]
    rfl
  | cons c rest ih =>
    obtain ⟨visits, rfl⟩ := Nat.exists_eq_add_one_of_ne_zero (Nat.ne_zero_of_lt enough)
    obtain ⟨rfl, chained⟩ := chained
    rw [search, visit_at (whole first mem_cons_self) headed plain]
    by_cases named : nodeName H layout first = name
    · rw [if_pos named, find?_cons_of_pos (by simpa using named)]
    · rw [if_neg named, find?_cons_of_neg (by simpa using named)]
      exact ih chained (fun d member => whole d (mem_cons_of_mem _ member)) (Nat.lt_of_succ_lt_succ enough)

end Search
/-- The root, which lies behind the header of the first bin. -/
def rootOffset : BitVec 32 := 0x1000 + BitVec.ofNat 32 sizeofBaseBlock

def rootNode : Pointer Nat := ⟨0, 0x1000 + sizeofBaseBlock⟩

def PlainName (name : List Byte) : Prop := name ≠ [] ∧ ∀ b ∈ name, b ≠ 0 ∧ b ≠ 0x2F ∧ b ≠ 0x5C

structure Represents (H : Hive) (T : NamedTree (BitVec 32) (List Byte)) : Prop where
  root : T.root = rootOffset
  rootCell : cellOf H rootOffset = rootNode
  key : ∀ k, T.Holds k → NodeAt H directoryNode k
  apart : ∀ k k', T.Holds k → T.Holds k' → cellOf H k = cellOf H k' → k = k'
  chained : ∀ k, T.Holds k →
    Chain (nodeField H · directoryNode.next) (nodeField H k directoryNode.first) (T.children k)
  parent : ∀ k, T.Holds k → ∀ c ∈ T.children k, nodeField H c 8 = k
  named : ∀ k, T.Holds k → nodeName H directoryNode k = T.name k
  plain : ∀ k, T.Holds k → ∀ c ∈ T.children k, PlainName (T.name c)

section Tree
variable {H : Hive} {T : NamedTree (BitVec 32) (List Byte)} {k : BitVec 32} {name : List Byte}

def lookupOf (H : Hive) : Option (BitVec 32) → Lookup
  | some c => .found c (cellOf H c)
  | none => .missing

theorem findSubkey_spec (represents : Represents H T) (holds : T.Holds k) (nonempty : name ≠ [])
    (plain : ∀ b ∈ name, b ≠ 0) (enough : (T.children k).length < visits) :
    vkpFindSubkey H (cellOf H k) name visits = some (lookupOf H (T.child k name)) := by
  have key := represents.key k holds
  have first : (kernelCells H).Inside ((cellOf H k).add directoryNode.first) 4 :=
    inside_add key.whole ((show 12 + 4 ≤ 30 by decide).trans (Nat.le_add_right _ _))
  rw [vkpFindSubkey, if_neg (mt length_eq_zero_iff.mp nonempty), findNode, if_neg (not_not.mpr first)]
  refine (search_chain (represents.chained k holds) (fun c member => represents.key c (holds.child member))
    directoryNode_headed plain enough).trans ?_
  have same : (T.children k).find? (fun c => decide (nodeName H directoryNode c = name)) = T.child k name := by
    refine find?_congr fun c member => ?_
    rw [represents.named c (holds.child member)]
  rw [same]
  rfl

end Tree
end VeaOS.Vk
