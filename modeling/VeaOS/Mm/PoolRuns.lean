import VeaOS.Foundation.Runs
import VeaOS.Mm.PoolSteps

/-! Whole runs of the pool: its pages stay tiled and its lists right, and every
block that is put on a list has room for its links as long as no block of one
unit is freed between blocks in use. -/
namespace VeaOS.Mm
open Foundation BoundaryTags Transition List Option
variable {Page : Type*} [DecidableEq Page]

theorem poolBlockSize_eq {numberOfBytes : BitVec 32} (fits : ¬ 0xFFFFFFFF - sizeofPoolHeader - 7 < numberOfBytes) :
    poolBlockSize numberOfBytes = (numberOfBytes.toNat + 15) / 8 := by
  have bound : numberOfBytes.toNat ≤ 0xFFFFFFF0 := by
    rw [BitVec.not_lt, BitVec.le_def] at fits
    exact fits
  have whole : (numberOfBytes + sizeofPoolHeader + 7 : BitVec 32).toNat = numberOfBytes.toNat + 15 := by
    have header : sizeofPoolHeader.toNat = 8 := rfl
    have seven : (7 : BitVec 32).toNat = 7 := rfl
    rw [BitVec.toNat_add, BitVec.toNat_add, header, seven]
    omega
  have mask : (~~~7 : BitVec 32) >>> 3 = 0x1FFFFFFF := by decide
  rw [poolBlockSize, BitVec.ushiftRight_and_distrib, mask, BitVec.toNat_and, BitVec.toNat_ushiftRight, whole,
    Nat.shiftRight_eq_div_pow]
  change (numberOfBytes.toNat + 15) / 2 ^ 3 &&& (2 ^ 29 - 1) = _
  rw [Nat.and_two_pow_sub_one_eq_mod]
  omega

namespace SmallPool

def IsLaid (σ : SmallPool Page) : Prop := ∃ layout blocks, Laid σ layout blocks none

theorem isLaid_initial (headers : Page → Nat → PoolHeader) : (ulInitializePools headers).IsLaid := by
  refine ⟨fun _ => [], fun _ => [], nodup_nil, fun page none => absurd none not_mem_nil,
    ⟨⟨fun i => ⟨nodup_singleton _, rfl, rfl⟩, fun {i j x} left right => ?_⟩, fun i b none => absurd none not_mem_nil⟩,
    fun {i b} => ?_, fun ℓ none => absurd none not_mem_nil, nodup_nil⟩
  · have same := (mem_singleton.mp left).symm.trans (mem_singleton.mp right)
    exact PoolLink.listHead.inj same
  · exact iff_of_false not_mem_nil fun all => absurd all.1 not_mem_nil

theorem allocate_laid {σ : SmallPool Page} (laid : σ.IsLaid) (numberOfBytes tag : BitVec 32) {supply : List Page}
    (distinct : supply.Nodup) (fresh : ∀ page ∈ supply, page ∉ σ.pages) :
    ∃ τ, σ.ulAllocatePoolWithTag numberOfBytes tag supply = some τ ∧ τ.IsLaid ∧ Laid.Adds σ τ ∧
      ∀ ℓ ∈ τ.live, ℓ ∈ σ.live ∨ ℓ.numberOfBytes = numberOfBytes ∧ ¬ isBigRequest numberOfBytes := by
  obtain ⟨layout, blocks, laid⟩ := laid
  unfold ulAllocatePoolWithTag
  split_ifs with big
  · exact ⟨σ, rfl, ⟨layout, blocks, laid⟩, Laid.Adds.refl σ, fun ℓ member => Or.inl member⟩
  · obtain ⟨fits, small⟩ := not_or.mp big
    have size := poolBlockSize_eq fits
    rcases laid.retryAllocation tag (show 0 < poolBlockSize numberOfBytes by omega) distinct fresh with
      ⟨τ, layout', blocks', stepped, laid', live, adds⟩ |
      ⟨τ, page, u, layout', blocks', stepped, laid', known, member, other, settled, room, live, adds⟩
    · rw [stepped]
      exact ⟨τ, rfl, ⟨layout', blocks', laid'⟩, adds, fun ℓ member => Or.inl (live ▸ member)⟩
    · rw [stepped]
      refine ⟨_, rfl, ⟨layout', blocks', laid'.use known member other settled tag numberOfBytes (by omega)⟩, adds,
        fun ℓ found => ?_⟩
      rcases mem_cons.mp found with rfl | old
      · exact Or.inr ⟨rfl, small⟩
      · exact Or.inl (live ▸ old)

theorem free_laid {σ : SmallPool Page} (laid : σ.IsLaid) {ℓ : LiveBlock Page} (live : ℓ ∈ σ.live) (tag : BitVec 32) :
    (¬ Laid.TagFits σ ℓ.page ℓ.offset tag ∧ σ.ulFreePoolWithTag ℓ.page ℓ.offset tag = none) ∨
    Laid.TagFits σ ℓ.page ℓ.offset tag ∧ ∃ τ, σ.ulFreePoolWithTag ℓ.page ℓ.offset tag = some τ ∧ τ.IsLaid ∧
      (∀ k ∈ τ.live, k ∈ σ.live) ∧
      τ.placed = if Laid.freedSize σ ℓ.page ℓ.unit = 511 then σ.placed
        else Laid.freedSize σ ℓ.page ℓ.unit :: σ.placed := by
  obtain ⟨layout, blocks, laid⟩ := laid
  refine (laid.freed live tag).imp id (And.imp id ?_)
  rintro ⟨τ, layout', blocks', stepped, laid', live, placed⟩
  exact ⟨τ, stepped, ⟨layout', blocks', laid'⟩, live, placed⟩

theorem step_laid {σ τ : SmallPool Page} {call : PoolCall Page} (laid : σ.IsLaid) (admitted : σ.Admits call)
    (stepped : σ.step call = some τ) : τ.IsLaid := by
  cases call with
  | allocate numberOfBytes tag supply =>
    obtain ⟨υ, same, after, _⟩ := allocate_laid laid numberOfBytes tag admitted.1 admitted.2
    exact some.inj (same.symm.trans stepped) ▸ after
  | free page offset tag =>
    rcases admitted with rfl | ⟨ℓ, live, rfl, rfl⟩
    · exact some.inj stepped ▸ laid
    · rcases free_laid laid live tag with ⟨_, stops⟩ | ⟨_, υ, same, after, _⟩
      · cases stops.symm.trans stepped
      · exact some.inj (same.symm.trans stepped) ▸ after

/-- The blocks that were put on a list have two units or more: that of the header, and that of the links. -/
def HoldsLinks (σ : SmallPool Page) : Prop := ∀ k ∈ σ.placed, 8 + 8 ≤ 8 * k

/-- A block of one unit is freed next to a free block only. -/
def MergesUnit (σ : SmallPool Page) : PoolCall Page → Prop
  | .allocate _ _ _ => True
  | .free page offset _ =>
    let u := offset / 8 - 1
    let size := (σ.headers page u).blockSize
    offset = 0 ∨ 2 ≤ size ∨ Laid.previousFree σ page u ∨ (σ.headers page (u + size)).poolType = 0

instance (σ : SmallPool Page) (call : PoolCall Page) : Decidable (σ.MergesUnit call) :=
  match call with
  | .allocate _ _ _ => isTrue trivial
  | .free _ _ _ => inferInstanceAs (Decidable (_ ∨ _))

theorem freedSize_two {σ : SmallPool Page} (laid : σ.IsLaid) {ℓ : LiveBlock Page} (live : ℓ ∈ σ.live)
    (tag : BitVec 32) : 2 ≤ Laid.freedSize σ ℓ.page ℓ.unit ↔ σ.MergesUnit (.free ℓ.page ℓ.offset tag) := by
  obtain ⟨layout, blocks, laid⟩ := laid
  have stands := laid.live ℓ live
  have some_ : ℓ.offset ≠ 0 := by
    have := stands.offset
    omega
  have whole := laid.pages ℓ.page stands.page
  rw [holeIn_none] at whole
  have filled := (whole.inside stands.unit).2
  have before : Laid.previousFree σ ℓ.page ℓ.unit →
      0 < (σ.headers ℓ.page (ℓ.unit - (σ.headers ℓ.page ℓ.unit).previousSize)).blockSize := fun free => by
    obtain ⟨first, _⟩ | ⟨_, t, _, _, start, back, positive⟩ := whole.previous stands.unit fun t none => by cases none
    · exact absurd first free.1
    · rw [show ℓ.unit - (σ.headers ℓ.page ℓ.unit).previousSize = t by omega]
      exact positive
  have behind : 0 < (σ.headers ℓ.page (ℓ.unit + (σ.headers ℓ.page ℓ.unit).blockSize)).blockSize := by
    obtain ⟨_, _, units⟩ := whole.next stands.unit stands.inside
    exact (whole.inside (by simp [units])).2
  have unit : ℓ.offset / 8 - 1 = ℓ.unit := rfl
  simp only [MergesUnit, Laid.freedSize, unit, some_, false_or]
  by_cases front : Laid.previousFree σ ℓ.page ℓ.unit
  · have := before front
    rw [if_pos front]
    exact iff_of_true (by omega) (Or.inr (Or.inl front))
  · rw [if_neg front, or_iff_right front]
    by_cases back : (σ.headers ℓ.page (ℓ.unit + (σ.headers ℓ.page ℓ.unit).blockSize)).poolType = 0
    · rw [if_pos back]
      exact iff_of_true (by omega) (Or.inr back)
    · rw [if_neg back, or_iff_left back]
      omega

theorem step_holdsLinks {σ τ : SmallPool Page} {call : PoolCall Page} (laid : σ.IsLaid)
    (admitted : σ.Admits call) (stepped : σ.step call = some τ) :
    τ.HoldsLinks ↔ σ.HoldsLinks ∧ σ.MergesUnit call := by
  cases call with
  | allocate numberOfBytes tag supply =>
    obtain ⟨υ, same, _, ⟨more, placed, all⟩, _⟩ := allocate_laid laid numberOfBytes tag admitted.1 admitted.2
    obtain rfl := some.inj (same.symm.trans stepped)
    rw [HoldsLinks, placed]
    refine ⟨fun kept => ⟨fun k member => kept k (mem_append_right _ member), trivial⟩, fun kept k member => ?_⟩
    rcases mem_append.mp member with new | old
    · have := all k new
      omega
    · exact kept.1 k old
  | free page offset tag =>
    rcases admitted with rfl | ⟨ℓ, live, rfl, rfl⟩
    · obtain rfl := some.inj stepped
      exact (and_iff_left (Or.inl rfl)).symm
    · rcases free_laid laid live tag with ⟨_, stops⟩ | ⟨_, υ, same, _, _, placed⟩
      · cases stops.symm.trans stepped
      · obtain rfl := some.inj (same.symm.trans stepped)
        rw [← freedSize_two laid live tag, HoldsLinks, placed]
        by_cases all : Laid.freedSize σ ℓ.page ℓ.unit = 511
        · rw [if_pos all]
          exact (and_iff_left (by omega)).symm
        · rw [if_neg all, forall_mem_cons, and_comm]
          refine and_congr_right fun _ => ?_
          omega

/-- Every block that is put on a free list holds its links exactly when no block
of one unit, the answer to a request of no bytes, is freed between blocks in use. -/
theorem free_blocks_hold_links {headers : Page → Nat → PoolHeader} {calls : List (PoolCall Page)} {σ : SmallPool Page}
    (admitted : Along Admits step (ulInitializePools headers) calls)
    (executed : exec step (ulInitializePools headers) calls = some σ) :
    σ.HoldsLinks ↔ Along MergesUnit step (ulInitializePools headers) calls := by
  have initial : (ulInitializePools headers).HoldsLinks := fun k none => absurd none not_mem_nil
  have exactly := exec_exact (Q := HoldsLinks) (fun laid admitted stepped => step_laid laid admitted stepped)
    (fun laid admitted stepped => step_holdsLinks laid admitted stepped) (isLaid_initial headers) admitted executed
  rw [exactly]
  exact and_iff_right initial

/-- A block of no bytes that is freed next to a free block. -/
theorem free_blocks_hold_links_sample :
    let calls : List (PoolCall Nat) := [.allocate 0 1 [7], .free 7 8 1]
    let headers : Nat → Nat → PoolHeader := fun _ _ => ⟨0, 0, 0, 0⟩
    ∃ σ, exec step (ulInitializePools headers) calls = some σ ∧ σ.HoldsLinks := by
  intro calls headers
  have ends : (exec step (ulInitializePools headers) calls).isSome = true := by decide +kernel
  obtain ⟨σ, executed⟩ := isSome_iff_exists.mp ends
  have admitted : Along Admits step (ulInitializePools headers) calls := by decide +kernel
  have merges : Along MergesUnit step (ulInitializePools headers) calls := by decide +kernel
  exact ⟨σ, executed, (free_blocks_hold_links admitted executed).mpr merges⟩

/-- Two requests for no bytes, and the first block is freed: its links lie in the second. -/
theorem free_block_without_links :
    let calls : List (PoolCall Nat) := [.allocate 0 1 [7], .allocate 0 1 [], .free 7 8 1]
    let headers : Nat → Nat → PoolHeader := fun _ _ => ⟨0, 0, 0, 0⟩
    Along Admits step (ulInitializePools headers) calls ∧
    ∃ σ, exec step (ulInitializePools headers) calls = some σ ∧ σ.placed = [1, 509, 510, 511] ∧ ¬ σ.HoldsLinks := by
  intro calls headers
  have ends : (exec step (ulInitializePools headers) calls).map placed = some [1, 509, 510, 511] := by decide +kernel
  obtain ⟨σ, executed, placed⟩ := map_eq_some_iff.mp ends
  have admitted : Along Admits step (ulInitializePools headers) calls := by decide +kernel
  refine ⟨admitted, σ, executed, placed, fun holds => ?_⟩
  have one := holds 1 (by rw [placed]; exact mem_cons_self)
  omega

def bodySize (σ : SmallPool Page) (ℓ : LiveBlock Page) : Nat := 8 * (σ.headers ℓ.page ℓ.unit).blockSize - 8

/-- The blocks of the pages and the lists of the free ones are in order. -/
structure InOrder (σ : SmallPool Page) (layout : Page → List Nat) (blocks : Nat → List (Page × Nat)) : Prop where
  tiled : ∀ page ∈ σ.pages, (tagsOf (σ.headers page)).Tiled (0, 0) (layout page) (512, 1)
  apart : ∀ page ∈ σ.pages, ∀ u ∈ layout page, ∀ v ∈ layout page, v = u + (σ.headers page u).blockSize →
    ¬ ((σ.headers page u).poolType = 0 ∧ (σ.headers page v).poolType = 0)
  lists : RingLinks.Family σ.links PoolLink.listHead fun i => (blocks i).map linkOf
  listed : ∀ i page u, (page, u) ∈ blocks i ↔ page ∈ σ.pages ∧ u ∈ layout page ∧
    (σ.headers page u).poolType = 0 ∧ (σ.headers page u).blockSize = i
  live : ∀ ℓ ∈ σ.live, ℓ.page ∈ σ.pages ∧ ℓ.unit ∈ layout ℓ.page ∧ (σ.headers ℓ.page ℓ.unit).poolType ≠ 0
  bodies : ∀ ℓ ∈ σ.live, 8 ∣ ℓ.offset ∧ 0 < ℓ.offset ∧ ℓ.offset < 4096 ∧
    ℓ.numberOfBytes.toNat ≤ σ.bodySize ℓ ∧ ℓ.offset + σ.bodySize ℓ ≤ 4096
  disjoint : σ.live.Pairwise fun ℓ k => ℓ.page ≠ k.page ∨ ℓ.offset + σ.bodySize ℓ ≤ k.offset ∨
    k.offset + σ.bodySize k ≤ ℓ.offset

theorem IsLaid.inOrder {σ : SmallPool Page} (laid : σ.IsLaid) : ∃ layout blocks, σ.InOrder layout blocks := by
  obtain ⟨layout, blocks, laid⟩ := laid
  have placed : ∀ page ∈ σ.pages, PageLaid (σ.headers page) (layout page) none := laid.pages
  have starts : ∀ ℓ ∈ σ.live, ℓ.offset = 8 * (ℓ.unit + 1) := fun ℓ live => (laid.live ℓ live).offset
  refine ⟨layout, blocks, fun page known => (placed page known).tiled, fun page known u left v right next both => ?_,
    laid.linked.family, fun i page u => ?_, fun ℓ live => ?_, fun ℓ live => ?_, ?_⟩
  · exact (placed page known).apart u left v right next ⟨both.1, fun none => by cases none⟩
      ⟨both.2, fun none => by cases none⟩
  · rw [laid.free]
    refine and_congr_right fun _ => and_congr_right fun _ => and_congr_right fun _ => and_iff_right fun none => by cases none
  · have stands := laid.live ℓ live
    exact ⟨stands.page, stands.unit, by rw [stands.used]; exact Nat.one_ne_zero⟩
  · have stands := laid.live ℓ live
    have start := stands.offset
    have inside := (placed ℓ.page stands.page).inside stands.unit
    obtain ⟨_, _, units⟩ := (placed ℓ.page stands.page).next stands.unit stands.inside
    have next := (placed ℓ.page stands.page).inside (u := ℓ.unit + (σ.headers ℓ.page ℓ.unit).blockSize) (by simp [units])
    have room := stands.room
    rw [bodySize]
    exact ⟨by omega, by omega, by omega, by omega, by omega⟩
  · have once : σ.live.Pairwise fun ℓ k => (ℓ.page, ℓ.offset) ≠ (k.page, k.offset) :=
      pairwise_map.mp laid.once
    refine (Pairwise.and_mem.mp once).imp fun {ℓ k} all => ?_
    obtain ⟨left, right, differ⟩ := all
    by_cases same : ℓ.page = k.page
    · have one := laid.live ℓ left
      have two := laid.live k right
      have units : ℓ.unit ≠ k.unit := fun equal => differ (by rw [same, starts ℓ left, starts k right, equal])
      have apart := (placed k.page two.page).tiled.disjoint (same ▸ one.unit) two.unit units
      have filled := (placed k.page two.page).inside (same ▸ one.unit)
      have filled' := (placed k.page two.page).inside two.unit
      have start := starts ℓ left
      have start' := starts k right
      simp only [PageLaid.tagsBut_size] at apart
      rw [bodySize, bodySize, same]
      exact Or.inr (by omega)
    · exact Or.inl same

def AsksBytes : PoolCall Page → Prop
  | .allocate numberOfBytes _ _ => isBigRequest numberOfBytes = false → numberOfBytes ≠ 0
  | .free _ _ _ => True

instance (call : PoolCall Page) : Decidable (AsksBytes call) :=
  match call with
  | .allocate _ _ _ => inferInstanceAs (Decidable (_ → _))
  | .free _ _ _ => isTrue trivial

def StopsAt (σ : SmallPool Page) : PoolCall Page → Prop
  | .allocate _ _ _ => False
  | .free page offset tag => offset ≠ 0 ∧ ¬ Laid.TagFits σ page offset tag

theorem step_none {σ : SmallPool Page} {call : PoolCall Page} (laid : σ.IsLaid) (admitted : σ.Admits call) :
    σ.step call = none ↔ σ.StopsAt call := by
  cases call with
  | allocate numberOfBytes tag supply =>
    obtain ⟨υ, stepped, _⟩ := allocate_laid laid numberOfBytes tag admitted.1 admitted.2
    exact iff_of_false (fun stops => by cases stepped.symm.trans stops) id
  | free page offset tag =>
    rcases admitted with rfl | ⟨ℓ, live, rfl, rfl⟩
    · exact iff_of_false (fun stops => by cases stops) fun stops => stops.1 rfl
    · have some_ : ℓ.offset ≠ 0 := by
        obtain ⟨_, _, laid⟩ := laid
        have := (laid.live ℓ live).offset
        omega
      rw [StopsAt, and_iff_right some_]
      rcases free_laid laid live tag with ⟨differs, stops⟩ | ⟨fits, υ, stepped, _⟩
      · exact iff_of_true stops differs
      · exact iff_of_false (fun stops => by cases stepped.symm.trans stops) fun differs => differs fits

/-- Where every request is for a byte or more, no block in use has one unit. -/
structure InBytes (σ : SmallPool Page) : Prop where
  laid : σ.IsLaid
  holdsLinks : σ.HoldsLinks
  bytes : ∀ ℓ ∈ σ.live, 0 < ℓ.numberOfBytes.toNat

theorem InBytes.step {σ τ : SmallPool Page} {call : PoolCall Page} (inBytes : σ.InBytes)
    (admitted : σ.Admits call) (asks : AsksBytes call) (stepped : σ.step call = some τ) : τ.InBytes := by
  refine ⟨step_laid inBytes.laid admitted stepped,
    (step_holdsLinks inBytes.laid admitted stepped).mpr ⟨inBytes.holdsLinks, ?_⟩, ?_⟩
  · cases call with
    | allocate => trivial
    | free page offset tag =>
      rcases admitted with rfl | ⟨ℓ, live, rfl, rfl⟩
      · exact Or.inl rfl
      · obtain ⟨_, _, laid⟩ := inBytes.laid
        have room := (laid.live ℓ live).room
        have some_ := inBytes.bytes ℓ live
        exact Or.inr (Or.inl (show 2 ≤ (σ.headers ℓ.page ℓ.unit).blockSize by omega))
  · intro ℓ member
    cases call with
    | allocate numberOfBytes tag supply =>
      obtain ⟨υ, same, _, _, live⟩ := allocate_laid inBytes.laid numberOfBytes tag admitted.1 admitted.2
      obtain rfl := some.inj (same.symm.trans stepped)
      rcases live ℓ member with old | ⟨new, small⟩
      · exact inBytes.bytes ℓ old
      · rw [new]
        have differ := asks (Bool.eq_false_iff.mpr small)
        exact Nat.pos_of_ne_zero fun none => differ (BitVec.eq_of_toNat_eq none)
    | free page offset tag =>
      rcases admitted with rfl | ⟨k, live, rfl, rfl⟩
      · obtain rfl := some.inj stepped
        exact inBytes.bytes ℓ member
      · rcases free_laid inBytes.laid live tag with ⟨_, stops⟩ | ⟨_, υ, same, _, kept, _⟩
        · cases stops.symm.trans stepped
        · obtain rfl := some.inj (same.symm.trans stepped)
          exact inBytes.bytes ℓ (kept ℓ member)

/-- In every reachable state the pages are tiled, the lists hold the free blocks and
nothing else, the bodies of the blocks in use are apart, and the only call that the
system stops at is one that frees a block under another tag. -/
theorem pool_page_tiling {headers : Page → Nat → PoolHeader} {calls : List (PoolCall Page)} {σ : SmallPool Page}
    (admitted : Along (fun σ call => Admits σ call ∧ AsksBytes call) step (ulInitializePools headers) calls)
    (executed : exec step (ulInitializePools headers) calls = some σ) :
    (∃ layout blocks, σ.InOrder layout blocks) ∧ σ.HoldsLinks ∧
      ∀ call, σ.Admits call → (σ.step call = none ↔ σ.StopsAt call) := by
  have initial : (ulInitializePools headers).InBytes :=
    ⟨isLaid_initial headers, fun k none => absurd none not_mem_nil, fun ℓ none => absurd none not_mem_nil⟩
  have final : σ.InBytes := exec_preserves (fun inBytes both stepped => InBytes.step inBytes both.1 both.2 stepped)
    initial admitted executed
  exact ⟨final.laid.inOrder, final.holdsLinks, fun call admitted => step_none final.laid admitted⟩

theorem pool_page_tiling_sample :
    let calls : List (PoolCall Nat) := [.allocate 24 1 [7], .allocate 100 2 [], .free 7 8 1]
    let headers : Nat → Nat → PoolHeader := fun _ _ => ⟨0, 0, 0, 0⟩
    ∃ σ, exec step (ulInitializePools headers) calls = some σ ∧ (∃ layout blocks, σ.InOrder layout blocks) ∧
      σ.live.map LiveBlock.offset = [40] := by
  intro calls headers
  have ends : ((exec step (ulInitializePools headers) calls).map fun σ => σ.live.map LiveBlock.offset) = some [40] := by
    decide +kernel
  obtain ⟨σ, executed, live⟩ := map_eq_some_iff.mp ends
  have admitted : Along (fun σ call => Admits σ call ∧ AsksBytes call) step (ulInitializePools headers) calls := by
    decide +kernel
  exact ⟨σ, executed, (pool_page_tiling admitted executed).1, live⟩

end SmallPool
end VeaOS.Mm
