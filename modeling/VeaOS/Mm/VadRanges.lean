import VeaOS.Mm.AddressSpace

/-! The ranges in the tree follow one another without overlap. What is put into
the tree has to lie between its neighbours; the search for a gap finds such a
place when all the ranges lie where it looks for them. -/
namespace VeaOS.Mm
open Foundation PointerTree Rtl
variable {Area : Type}

namespace AddressSpace

def first (σ : AddressSpace Area) (v : Nat) : Nat := (σ.vad v).startingVpn.toNat
def last (σ : AddressSpace Area) (v : Nat) : Nat := (σ.vad v).endingVpn.toNat

end AddressSpace

theorem toNat_shiftRight_page (va : BitVec 32) : (va >>> 12).toNat = va.toNat / 4096 := by
  rw [BitVec.toNat_ushiftRight, Nat.shiftRight_eq_div_pow]

theorem toNat_shiftLeft_page (vpn : BitVec 32) : (vpn <<< 12).toNat = vpn.toNat * 4096 % 0x100000000 := by
  rw [BitVec.toNat_shiftLeft, Nat.shiftLeft_eq]

/-- The tree holds ranges in order, and its nodes are not on the free list. -/
structure Ranges (σ : AddressSpace Area) (t : KeyTree Nat Int) : Prop where
  focus : Focus σ.mmKernelVadTree σ.mmKernelVadTree .top t
  avl : Avl t
  leftmost : σ.mmKernelVadTree.leftmost = t.inorder.head?
  ordered : t.inorder.Pairwise fun a b => σ.last a < σ.first b
  bounds : ∀ v ∈ t.inorder, σ.first v < 0x100000 ∧ σ.first v ≤ σ.last v + 1 ∧ σ.last v < 0x400000
  unused : (t.inorder ++ σ.mmVadFreeList).Nodup
  numbered : ∀ v ∈ t.inorder ++ σ.mmVadFreeList, v < σ.obtained

/-- The pages from `start` on lie between the ranges of the tree. Where there
are none, `start` lies there. -/
def Between (σ : AddressSpace Area) (t : KeyTree Nat Int) (start pages : Nat) : Prop :=
  ∀ v ∈ t.inorder, σ.last v < start ∨ (start < σ.first v ∧ start + pages ≤ σ.first v)

namespace Ranges
variable {σ σ' : AddressSpace Area} {t : KeyTree Nat Int}

theorem congr (ranges : Ranges σ t) (tree : σ'.mmKernelVadTree = σ.mmKernelVadTree)
    (vads : ∀ v ∈ t.inorder, (σ'.vad v).startingVpn = (σ.vad v).startingVpn ∧
      (σ'.vad v).endingVpn = (σ.vad v).endingVpn)
    (unused : (t.inorder ++ σ'.mmVadFreeList).Nodup)
    (numbered : ∀ v ∈ t.inorder ++ σ'.mmVadFreeList, v < σ'.obtained) : Ranges σ' t := by
  have first : ∀ v ∈ t.inorder, σ'.first v = σ.first v := fun v member => by
    rw [AddressSpace.first, (vads v member).1]
    rfl
  have last : ∀ v ∈ t.inorder, σ'.last v = σ.last v := fun v member => by
    rw [AddressSpace.last, (vads v member).2]
    rfl
  constructor
  · rw [tree]
    exact ranges.focus
  · exact ranges.avl
  · rw [tree]
    exact ranges.leftmost
  · refine ranges.ordered.imp_of_mem fun {a b} inA inB before => ?_
    rwa [last a inA, first b inB]
  · intro v member
    rw [first v member, last v member]
    exact ranges.bounds v member
  · exact unused
  · exact numbered

theorem allocate (ranges : Ranges σ t) (taken : mmpAllocateVadNode σ available = some (σ', node)) :
    Ranges σ' t ∧ node ∉ t.inorder ++ σ'.mmVadFreeList ∧ node < σ'.obtained ∧
      σ'.mmKernelVadTree = σ.mmKernelVadTree ∧ ∀ v ∈ t.inorder, σ'.vad v = σ.vad v := by
  have unused := ranges.unused
  have numbered := ranges.numbered
  cases list : σ.mmVadFreeList with
  | cons reused rest =>
    simp only [mmpAllocateVadNode, list, Option.some.injEq, Prod.mk.injEq] at taken
    obtain ⟨rfl, rfl⟩ := taken
    rw [list] at unused numbered
    obtain ⟨outside, distinct⟩ := List.nodup_cons.mp (List.nodup_middle.mp unused)
    have others : ∀ v ∈ t.inorder, (if v = reused then zeroVad Area else σ.vad v) = σ.vad v := by
      intro v member
      apply if_neg
      rintro rfl
      exact outside (List.mem_append_left _ member)
    refine ⟨ranges.congr rfl (fun v member => ?_) distinct fun v member => ?_, outside, ?_, rfl, others⟩
    · simp [AddressSpace.setVad, others v member]
    · apply numbered
      simp only [AddressSpace.setVad, List.mem_append, List.mem_cons] at member ⊢
      tauto
    · exact numbered reused (by simp)
  | nil =>
    simp only [mmpAllocateVadNode, list, Option.ite_none_left_eq_some, Option.some.injEq,
      Prod.mk.injEq] at taken
    obtain ⟨some, rfl, rfl⟩ := taken
    rw [list, List.append_nil] at unused numbered
    have outside : ∀ x, σ.obtained ≤ x → x ∉ t.inorder := by
      intro x larger member
      have := numbered x member
      omega
    have others : ∀ v ∈ t.inorder,
        (if v = σ.obtained then zeroVad Area else σ.vad v) = σ.vad v := by
      intro v member
      apply if_neg
      rintro rfl
      exact outside _ (Nat.le_refl _) member
    refine ⟨ranges.congr rfl (fun v member => ?_) ?_ fun v member => ?_, ?_, ?_, rfl, others⟩
    · simp [AddressSpace.setVad, others v member]
    · refine List.nodup_append.mpr ⟨unused, List.nodup_reverse.mpr (List.nodup_range' ..), ?_⟩
      rintro x member y new rfl
      simp only [AddressSpace.setVad, List.mem_reverse, List.mem_range'_1] at new
      exact outside x (by omega) member
    · rcases List.mem_append.mp member with old | new
      · have := numbered v old
        simp only [AddressSpace.setVad]
        omega
      · simp only [AddressSpace.setVad, List.mem_reverse, List.mem_range'_1] at new ⊢
        omega
    · simp only [AddressSpace.setVad, List.mem_append, List.mem_reverse, List.mem_range'_1]
      rintro (member | new)
      · exact outside _ (Nat.le_refl _) member
      · omega
    · simp only [AddressSpace.setVad]
      omega

theorem free (ranges : Ranges σ t) (outside : node ∉ t.inorder ++ σ.mmVadFreeList)
    (known : node < σ.obtained) : Ranges (mmpFreeVadNode σ node) t := by
  refine ranges.congr rfl (fun v member => ?_) ?_ fun v member => ?_
  · have other : v ≠ node := by
      rintro rfl
      exact outside (List.mem_append_left _ member)
    simp [mmpFreeVadNode, AddressSpace.setVad, other]
  · exact List.nodup_middle.mpr (List.nodup_cons.mpr ⟨outside, ranges.unused⟩)
  · simp only [mmpFreeVadNode, AddressSpace.setVad, List.mem_append, List.mem_cons] at member ⊢
    rcases member with inTree | rfl | listed
    · exact ranges.numbered v (List.mem_append_left _ inTree)
    · exact known
    · exact ranges.numbered v (List.mem_append_right _ listed)

/-- The node of a new range is inserted between its neighbours. -/
theorem insert (ranges : Ranges σ t) (outside : new ∉ t.inorder ++ σ.mmVadFreeList)
    (known : new < σ.obtained)
    (between : ∀ v ∈ t.inorder, σ.last v < σ.first new ∨
      (σ.first new < σ.first v ∧ σ.last new < σ.first v))
    (bounds : σ.first new < 0x100000 ∧ σ.first new ≤ σ.last new + 1 ∧ σ.last new < 0x400000)
    (enough : 2 * t.size ≤ fuel) :
    ∃ σ' t', insertVad fuel σ new = some σ' ∧ Ranges σ' t' ∧ t'.size = t.size + 1 ∧
      (∀ v, v ∈ t'.inorder ↔ v ∈ t.inorder ∨ v = new) ∧ σ'.vad = σ.vad := by
  have goesLeft : ∀ v, decide (mmpCompareVad σ new v < 0) = true ↔ σ.first new < σ.first v := by
    intro v
    simp only [mmpCompareVad, decide_eq_true_eq, AddressSpace.first, BitVec.lt_def, gt_iff_lt]
    split
    · next less => simp [less]
    · next notLess =>
        split <;> simp [notLess]
  have sorted : t.inorder.Pairwise fun a b =>
      decide (mmpCompareVad σ new a < 0) = true → decide (mmpCompareVad σ new b < 0) = true := by
    refine ranges.ordered.imp_of_mem fun {a b} inA inB before => ?_
    rw [goesLeft, goesLeft]
    have := ranges.bounds a inA
    omega
  obtain ⟨notBefore, inFront⟩ := Context.insertion_separates
    (fun node => mmpCompareVad σ new node < 0) (t := t) (c := .top) sorted (by simp [Context.before])
    (by simp [Context.after])
  have split := Context.before_after_insertion (fun node => mmpCompareVad σ new node < 0) t
  obtain ⟨T, t', inserted, focus, avl, order, cached⟩ := insertAvl_spec (mmpCompareVad σ) ranges.focus
    ranges.avl ranges.leftmost (fun member => outside (List.mem_append_left _ member)) sorted enough
  generalize Context.insertion (fun node => mmpCompareVad σ new node < 0) t .top = c at *
  have added : t'.inorder.Perm (new :: t.inorder) := by
    rw [order, ← split]
    exact List.perm_middle
  have members : ∀ v, v ∈ t'.inorder ↔ v ∈ t.inorder ∨ v = new := by
    intro v
    rw [added.mem_iff, List.mem_cons, or_comm]
  have listed : (t'.inorder ++ σ.mmVadFreeList).Perm (new :: (t.inorder ++ σ.mmVadFreeList)) :=
    added.append_right _
  refine ⟨{ σ with mmKernelVadTree := T }, t', ?_, ⟨focus, avl, cached, ?_, ?_, ?_, ?_⟩, ?_, members, rfl⟩
  · simp only [insertVad, inserted, Option.bind_eq_bind, Option.bind_some, Option.pure_def]
  · have neighbours := ranges.ordered
    rw [← split, List.pairwise_append] at neighbours
    obtain ⟨inBefore, inAfter, cross⟩ := neighbours
    rw [order]
    refine List.pairwise_append.mpr ⟨inBefore, List.pairwise_cons.mpr ⟨fun v member => ?_, inAfter⟩, ?_⟩
    · have inTree : v ∈ t.inorder := split ▸ List.mem_append_right _ member
      have less := (goesLeft v).mp (inFront v member)
      have := ranges.bounds v inTree
      rcases between v inTree with past | ahead
      · omega
      · exact ahead.2
    · intro a inA b later
      rcases List.mem_cons.mp later with rfl | later
      · have inTree : a ∈ t.inorder := split ▸ List.mem_append_left _ inA
        have notLess : ¬ σ.first b < σ.first a := fun less => by
          have goes := (goesLeft a).mpr less
          rw [notBefore a inA] at goes
          cases goes
        rcases between a inTree with past | ahead
        · exact past
        · exact absurd ahead.1 notLess
      · exact cross a inA b later
  · intro v member
    rcases (members v).mp member with old | rfl
    · exact ranges.bounds v old
    · exact bounds
  · exact listed.nodup_iff.mpr (List.nodup_cons.mpr ⟨outside, ranges.unused⟩)
  · intro v member
    rcases List.mem_cons.mp (listed.mem_iff.mp member) with rfl | old
    · exact known
    · exact ranges.numbered v old
  · rw [← KeyTree.length_inorder, added.length_eq, List.length_cons, KeyTree.length_inorder]

theorem remove (ranges : Ranges σ t) (present : node ∈ t.inorder) (enough : 2 * t.size ≤ fuel) :
    ∃ σ' t', removeVad fuel σ node = some σ' ∧ Ranges σ' t' ∧ t'.size ≤ t.size := by
  obtain ⟨T, t', deleted, focus, avl, order, cached⟩ :=
    deleteAvl_spec ranges.focus ranges.avl ranges.leftmost present enough
  have distinct := ranges.focus.distinct
  have without : Ranges { σ with mmKernelVadTree := T } t' := by
    constructor
    · exact focus
    · exact avl
    · exact cached
    · rw [order]
      exact ranges.ordered.sublist List.erase_sublist
    · intro v member
      rw [order] at member
      exact ranges.bounds v (List.mem_of_mem_erase member)
    · rw [order]
      exact ranges.unused.sublist (List.erase_sublist.append_right _)
    · intro v member
      rw [order] at member
      apply ranges.numbered v
      exact (List.erase_sublist.append_right _).subset member
  have gone : node ∉ t'.inorder ++ σ.mmVadFreeList := by
    rw [order, List.mem_append, not_or]
    constructor
    · exact fun member => (List.Nodup.mem_erase_iff distinct |>.mp member).1 rfl
    · exact fun listed => (List.nodup_append.mp ranges.unused).2.2 node present node listed rfl
  refine ⟨_, t', ?_, without.free gone (ranges.numbered node (List.mem_append_left _ present)), ?_⟩
  · simp only [removeVad, deleted, Option.bind_eq_bind, Option.bind_some, Option.pure_def]
  · rw [← KeyTree.length_inorder, ← KeyTree.length_inorder, order]
    exact List.length_erase_le

end Ranges

section Search
variable {σ : AddressSpace Area} {t : KeyTree Nat Int}

theorem find_spec (vpn : BitVec 32) (stored : σ.mmKernelVadTree.Stored up t)
    (ordered : t.inorder.Pairwise fun a b => σ.last a < σ.first b)
    (bounds : ∀ v ∈ t.inorder, σ.first v ≤ σ.last v + 1) (enough : t.size ≤ fuel) :
    ∃ found, mmpFindVadByVpn σ vpn fuel t.root = some found ∧
      (∀ v, found = some v → v ∈ t.inorder) ∧
      ∀ v ∈ t.inorder, σ.first v ≤ vpn.toNat → vpn.toNat ≤ σ.last v → found = some v := by
  induction t generalizing up fuel with
  | nil =>
    refine ⟨none, ?_, fun v => (nomatch ·), fun v => (nomatch ·)⟩
    cases fuel <;> rfl
  | node l k d r left right =>
    obtain ⟨onLeft, onRight, _, _, below, below'⟩ := stored
    simp only [KeyTree.size] at enough
    obtain ⟨fuel, rfl⟩ : ∃ rest, fuel = rest + 1 := ⟨fuel - 1, by omega⟩
    simp only [KeyTree.inorder, List.pairwise_append, List.pairwise_cons, List.mem_cons] at ordered
    obtain ⟨orderedL, ⟨beforeR, orderedR⟩, cross⟩ := ordered
    have inL : ∀ v ∈ l.inorder, v ∈ (KeyTree.node l k d r).inorder := fun v member =>
      List.mem_append_left _ member
    have inR : ∀ v ∈ r.inorder, v ∈ (KeyTree.node l k d r).inorder := fun v member =>
      List.mem_append_right _ (List.mem_cons_of_mem _ member)
    have boundK := bounds k (by simp [KeyTree.inorder])
    simp only [KeyTree.root, mmpFindVadByVpn, onLeft, onRight, BitVec.le_def, BitVec.lt_def]
    split
    · next holds =>
        refine ⟨some k, rfl, fun v same => ?_, fun v member low high => ?_⟩
        · cases same
          simp [KeyTree.inorder]
        · simp only [KeyTree.inorder, List.mem_append, List.mem_cons] at member
          rcases member with inLeft | rfl | inRight
          · have := cross v inLeft k (.inl rfl)
            simp only [AddressSpace.first, AddressSpace.last] at *
            omega
          · rfl
          · have := beforeR v inRight
            simp only [AddressSpace.first, AddressSpace.last] at *
            omega
    · next outside =>
        split
        · next less =>
            obtain ⟨found, result, inside, complete⟩ :=
              left below orderedL (fun v member => bounds v (inL v member)) (show _ ≤ fuel by omega)
            refine ⟨found, result, fun v same => inL v (inside v same), fun v member low high => ?_⟩
            simp only [KeyTree.inorder, List.mem_append, List.mem_cons] at member
            rcases member with inLeft | rfl | inRight
            · exact complete v inLeft low high
            · exact absurd ⟨low, high⟩ outside
            · have := beforeR v inRight
              simp only [AddressSpace.first, AddressSpace.last] at *
              omega
        · next notLess =>
            obtain ⟨found, result, inside, complete⟩ := right below' orderedR
              (fun v member => bounds v (inR v member)) (show _ ≤ fuel by omega)
            refine ⟨found, result, fun v same => inR v (inside v same), fun v member low high => ?_⟩
            simp only [KeyTree.inorder, List.mem_append, List.mem_cons] at member
            rcases member with inLeft | rfl | inRight
            · have := cross v inLeft k (.inl rfl)
              simp only [AddressSpace.first, AddressSpace.last] at *
              omega
            · exact absurd ⟨low, high⟩ outside
            · exact complete v inRight low high

/-- A free range of pages, in front of a range of the tree. -/
def Gap (σ : AddressSpace Area) (nodes : List Nat) (pages p : Nat) : Prop :=
  (∃ v ∈ nodes, p + pages ≤ σ.first v) ∧ ∀ v ∈ nodes, σ.last v < p ∨ p + pages ≤ σ.first v

/-- The search for a gap, after the nodes `done`: it ends in front of a range or
behind the last one, and finds the lowest gap when there is one. -/
theorem gap_spec (steps : Nat) (reached : BitVec 32) (focus : Focus σ.mmKernelVadTree σ.mmKernelVadTree .top t)
    (ordered : t.inorder.Pairwise fun a b => σ.last a < σ.first b)
    (bounds : ∀ v ∈ t.inorder, σ.first v ≤ σ.last v + 1 ∧ σ.last v < 0x400000)
    (order : t.inorder = done ++ rest) (enough : t.size ≤ fuel)
    (short : rest.length ≤ steps) (positive : 0 < pages.toNat)
    (past : ∀ v ∈ done, σ.last v < reached.toNat) (ahead : ∀ v ∈ rest, reached.toNat ≤ σ.first v) :
    ∃ va page, mmpFindFreeVirtualGap fuel σ pages steps rest.head? reached = some (va, page) ∧
      reached.toNat ≤ page.toNat ∧
      (va = page <<< 12 ∧ Gap σ t.inorder pages.toNat page.toNat ∧
          (∀ p, reached.toNat ≤ p → Gap σ t.inorder pages.toNat p → page.toNat ≤ p) ∨
        va = 0 ∧ (∀ v ∈ t.inorder, σ.last v < page.toNat) ∧
          (page = reached ∨ ∃ v ∈ rest, page.toNat = σ.last v + 1) ∧
          ∀ p, reached.toNat ≤ p → ¬ Gap σ t.inorder pages.toNat p) := by
  induction rest generalizing done reached steps with
  | nil =>
    rw [List.append_nil] at order
    refine ⟨0, reached, by cases steps <;> rfl, Nat.le_refl _, .inr ⟨rfl, order ▸ past, .inl rfl, ?_⟩⟩
    rintro p later ⟨⟨v, member, fits⟩, _⟩
    have bound := bounds v member
    have := past v (order ▸ member)
    omega
  | cons k rest ih =>
    obtain ⟨steps, rfl⟩ : ∃ less, steps = less + 1 :=
      ⟨steps - 1, by simp only [List.length_cons] at short; omega⟩
    have memberK : k ∈ t.inorder := by simp [order]
    have boundK := bounds k memberK
    have aheadK := ahead k (by simp)
    have sorted := ordered
    rw [order, List.pairwise_append, List.pairwise_cons] at sorted
    obtain ⟨_, ⟨beforeRest, _⟩, _⟩ := sorted
    simp only [List.head?_cons, mmpFindFreeVirtualGap]
    have width : ((σ.vad k).startingVpn - reached).toNat = σ.first k - reached.toNat := by
      apply BitVec.toNat_sub_of_le
      exact aheadK
    split
    · next wide =>
        rw [ge_iff_le, BitVec.le_def, width] at wide
        refine ⟨_, reached, rfl, Nat.le_refl _,
          .inl ⟨rfl, ⟨⟨k, memberK, by omega⟩, fun v member => ?_⟩, fun p later _ => later⟩⟩
        rw [order] at member
        simp only [List.mem_append, List.mem_cons] at member
        rcases member with old | rfl | later
        · exact .inl (past v old)
        · right
          omega
        · have := beforeRest v later
          right
          omega
    · next narrow =>
        rw [ge_iff_le, BitVec.le_def, width] at narrow
        have next : ((σ.vad k).endingVpn + 1).toNat = σ.last k + 1 := by
          have : (σ.vad k).endingVpn.toNat < 0x400000 := boundK.2
          have one : (1 : BitVec 32).toNat = 1 := rfl
          rw [BitVec.toNat_add, AddressSpace.last, one]
          omega
        have pastK : ∀ v ∈ done ++ [k], σ.last v < ((σ.vad k).endingVpn + 1).toNat := by
          intro v member
          simp only [List.mem_append, List.mem_singleton] at member
          rcases member with old | rfl
          · have := past v old
            omega
          · omega
        have aheadRest : ∀ v ∈ rest, ((σ.vad k).endingVpn + 1).toNat ≤ σ.first v := by
          intro v member
          have := beforeRest v member
          omega
        -- a gap in front of the range is too narrow, so it lies behind
        have behind : ∀ p, reached.toNat ≤ p → Gap σ t.inorder pages.toNat p →
            ((σ.vad k).endingVpn + 1).toNat ≤ p := by
          intro p later gap
          rcases gap.2 k memberK with before | fits <;> omega
        obtain ⟨va, page, found, forward, result⟩ :=
          ih steps _ (by simp [order]) (by simpa using short) pastK aheadRest
        refine ⟨va, page, ?_, by omega, ?_⟩
        · rw [rtlGetNextNodeAvl, focus.successor_inorder order enough, Option.bind_eq_bind,
            Option.bind_some, found]
        · rcases result with ⟨same, gap, lowest⟩ | ⟨zero, all, reaches, nowhere⟩
          · exact .inl ⟨same, gap, fun p later gap' => lowest p (behind p later gap') gap'⟩
          · refine .inr ⟨zero, all, .inr ?_, fun p later gap => nowhere p (behind p later gap) gap⟩
            rcases reaches with rfl | ⟨v, member, same⟩
            · exact ⟨k, by simp, next⟩
            · exact ⟨v, List.mem_cons_of_mem _ member, same⟩

end Search
end VeaOS.Mm
