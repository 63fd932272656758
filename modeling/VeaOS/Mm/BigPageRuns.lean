import VeaOS.Foundation.Census
import VeaOS.Foundation.Runs
import VeaOS.Mm.BigPages

/-! The table of the big pages over runs of allocations and frees: it holds exactly
the blocks that were allocated and not freed. -/
namespace VeaOS.Mm
open Foundation Transition Function List

/-- The pool, and the blocks that were allocated and not freed. -/
structure BigState where
  pool : BigPool
  blocks : List BigPage

inductive BigAction where
  | allocate (poolType : PoolType) (numberOfBytes tag : BitVec 32) (va : Option (BitVec 32))
  | free (p tag : BitVec 32)

def PageAligned (va : BitVec 32) : Prop := va ≠ 0 ∧ va.toNat % 4096 = 0

/-- The page allocator hands out pages that are not handed out. -/
def BigStep (σ : BigState) : BigAction → BigState → Prop
  | .allocate poolType numberOfBytes tag va, σ' =>
    isBigRequest numberOfBytes = true ∧
    (∀ start, va = some start → PageAligned start ∧ ∀ range ∈ σ.pool.pages, range.1 ≠ start) ∧
    ∃ pool' result, ulAllocatePoolWithTag σ.pool poolType numberOfBytes tag va = (pool', result) ∧
      σ' = ⟨pool', match result with
        | none => σ.blocks
        | some start => ⟨start, tag, (numberOfBytes - 1) / 4096 + 1, numberOfBytes, poolType⟩ :: σ.blocks⟩
  | .free p tag, σ' => PageAligned p ∧ ∃ pool', ulFreePoolWithTag σ.pool p tag = some pool' ∧
      σ' = ⟨pool', σ.blocks.eraseP (·.va == p)⟩

def slotOf (entry : BigPage) : Slot (BitVec 32) :=
  if entry.va = 0 then .unused else if entry.va = bigPageTombstone then .removed else .holds entry.va

def Tracks (entry : BigPage) : Bool := !(slotOf entry).vacant

/-- Every block is found with what was recorded for it, and nothing else is. -/
structure BigTracked (σ : BigState) : Prop where
  found : b ∈ σ.blocks → ∃ i, bigPageOf σ.pool.ulBigPageTable b.va = some i ∧ σ.pool.ulBigPageTable i = b
  freed : PageAligned p → (∀ b ∈ σ.blocks, b.va ≠ p) → bigPageOf σ.pool.ulBigPageTable p = none
  released : b ∈ σ.blocks → tag = 0 ∨ tag = b.key → ∃ pool', ulFreePoolWithTag σ.pool b.va tag = some pool'
  counted : σ.pool.ulpBigPageTableCount.toNat = σ.blocks.length
  entries : census Tracks σ.pool.ulBigPageTable = σ.blocks.length
  pages : σ.pool.pages.Perm (σ.blocks.map fun b => (b.va, b.numberOfPages))

section Slots
variable {va : BitVec 32} {table : Fin 1024 → BigPage}

theorem PageAligned.ne_tombstone (aligned : PageAligned va) : va ≠ bigPageTombstone := by
  rintro rfl
  exact absurd aligned.2 (by decide)

theorem slotOf_holds (aligned : PageAligned va) {entry : BigPage} :
    slotOf entry = .holds va ↔ entry.va = va := by
  rw [slotOf]
  constructor
  · intro held
    split at held
    next => cases held
    next =>
      split at held
      next => cases held
      next => exact Slot.holds.inj held
  · rintro rfl
    rw [if_neg aligned.1, if_neg aligned.ne_tombstone]

theorem slotOf_unused {entry : BigPage} : slotOf entry = .unused ↔ entry.va = 0 := by
  rw [slotOf]
  split
  next zero => exact iff_of_true rfl zero
  next nonzero =>
    split
    next => exact iff_of_false nofun nonzero
    next => exact iff_of_false nofun nonzero

theorem slotOf_vacant {entry : BigPage} :
    (slotOf entry).vacant = (entry.va == 0 || entry.va == bigPageTombstone) := by
  rw [slotOf]
  by_cases zero : entry.va = 0
  · simp [zero, Slot.vacant]
  · by_cases removed : entry.va = bigPageTombstone
    · simp [removed, Slot.vacant, bigPageTombstone]
    · rw [if_neg zero, if_neg removed, beq_eq_false_iff_ne.mpr zero, beq_eq_false_iff_ne.mpr removed]
      rfl

theorem bigPageRoom_eq : bigPageRoom table va =
    Probe.room ulpComputeHashForVa (fun i => slotOf (table i)) va := by
  simp only [bigPageRoom, Probe.room, slotOf_vacant]

theorem bigPageOf_eq (aligned : PageAligned va) : bigPageOf table va =
    Probe.find ulpComputeHashForVa (fun i => slotOf (table i)) va := by
  rw [bigPageOf, Probe.find]
  congr 1
  · funext i
    rw [Bool.eq_iff_iff, beq_iff_eq, beq_iff_eq, slotOf_holds aligned]
  · funext i
    rw [Bool.eq_iff_iff, beq_iff_eq, beq_iff_eq, slotOf_unused]

theorem slotOf_update (table : Fin 1024 → BigPage) (i : Fin 1024) (entry : BigPage) :
    (fun j => slotOf (update table i entry j)) =
      update (fun j => slotOf (table j)) i (slotOf entry) := by
  funext j
  by_cases here : j = i
  · rw [here, update_self, update_self]
  · rw [update_of_ne here, update_of_ne here]

theorem numberOfPages_ne_zero (bytes : BitVec 32) : (bytes - 1) / 4096 + 1 ≠ 0 := by
  intro zero
  have sum := congrArg BitVec.toNat zero
  have bound := (bytes - 1).isLt
  rw [BitVec.toNat_add, BitVec.toNat_udiv, show (4096 : BitVec 32).toNat = 4096 from rfl,
    show (1 : BitVec 32).toNat = 1 from rfl, show (0 : BitVec 32).toNat = 0 from rfl] at sum
  omega

end Slots

/-- The entries in use are the blocks, each with pages of its own. -/
structure BigKept (σ : BigState) : Prop where
  chained : Probe.Chained ulpComputeHashForVa fun i => slotOf (σ.pool.ulBigPageTable i)
  members : b ∈ σ.blocks ↔ (∃ i, σ.pool.ulBigPageTable i = b) ∧ Tracks b = true
  distinct : (σ.blocks.map BigPage.va).Nodup
  valid : b ∈ σ.blocks → PageAligned b.va ∧ b.numberOfPages ≠ 0 ∧ b.poolType ≠ .maxPoolType
  counted : σ.pool.ulpBigPageTableCount.toNat = σ.blocks.length
  entries : census Tracks σ.pool.ulBigPageTable = σ.blocks.length
  pages : σ.pool.pages.Perm (σ.blocks.map fun b => (b.va, b.numberOfPages))

namespace BigKept
variable {σ σ' : BigState}

variable (kept : BigKept σ)
include kept

theorem held (member : b ∈ σ.blocks) :
    ∃ i, bigPageOf σ.pool.ulBigPageTable b.va = some i ∧ σ.pool.ulBigPageTable i = b := by
  obtain ⟨⟨i, same⟩, _⟩ := kept.members.mp member
  have aligned := (kept.valid member).1
  refine ⟨i, ?_, same⟩
  rw [bigPageOf_eq aligned, kept.chained.find_iff, slotOf_holds aligned, same]

theorem block (aligned : PageAligned p) (found : bigPageOf σ.pool.ulBigPageTable p = some i) :
    σ.pool.ulBigPageTable i ∈ σ.blocks ∧ (σ.pool.ulBigPageTable i).va = p := by
  rw [bigPageOf_eq aligned, kept.chained.find_iff] at found
  refine ⟨kept.members.mpr ⟨⟨i, rfl⟩, ?_⟩, (slotOf_holds aligned).mp found⟩
  rw [Tracks, found]
  rfl

theorem tracked : BigTracked σ := by
  refine ⟨kept.held, fun {p} aligned others => ?_, fun {b tag} member given => ?_, kept.counted, kept.entries,
    kept.pages⟩
  · rw [Option.eq_none_iff_forall_ne_some]
    intro i found
    obtain ⟨member, same⟩ := kept.block aligned found
    exact others _ member same
  · obtain ⟨i, found, same⟩ := kept.held member
    obtain ⟨_, pages, type⟩ := kept.valid member
    have matching : ¬ (tag ≠ 0 ∧ b.key ≠ tag) := by
      rintro ⟨nonzero, other⟩
      exact given.elim nonzero fun given => other given.symm
    have sound : ¬ (b.poolType = .maxPoolType ∨ b.numberOfPages = 0) := not_or.mpr ⟨type, pages⟩
    simp only [ulFreePoolWithTag, found, same, if_neg matching, if_neg sound]
    exact ⟨_, rfl⟩

theorem refused (poolType : PoolType) (numberOfBytes tag : BitVec 32)
    (va : Option (BitVec 32)) (full : σ.blocks.length = 1024) :
    ulAllocatePoolWithTag σ.pool poolType numberOfBytes tag va = (σ.pool, none) := by
  rw [ulAllocatePoolWithTag]
  split
  next => rfl
  next =>
    dsimp only
    split
    next => rfl
    next start =>
      have none_ : bigPageRoom σ.pool.ulBigPageTable start = none := by
        rw [Option.eq_none_iff_forall_ne_some]
        intro i room
        rw [bigPageRoom] at room
        obtain ⟨vacant, _⟩ := Probe.probe_some room
        rw [← slotOf_vacant] at vacant
        have more := census_update Tracks σ.pool.ulBigPageTable i ⟨1, 0, 0, 0, .nonPagedPool⟩
        have bound : census Tracks (update σ.pool.ulBigPageTable i ⟨1, 0, 0, 0, .nonPagedPool⟩) ≤
            Nat.card (Fin 1024) := census_le
        rw [Nat.card_eq_fintype_card, Fintype.card_fin] at bound
        rw [kept.entries, full, show Tracks (σ.pool.ulBigPageTable i) = false by rw [Tracks, vacant]; rfl,
          show Tracks ⟨1, 0, 0, 0, .nonPagedPool⟩ = true from rfl] at more
        simp only [Bool.toNat_true, Bool.toNat_false] at more
        omega
      have same : (σ.pool.mmAllocatePoolPages start ((numberOfBytes - 1) / 4096 + 1)).ulBigPageTable =
          σ.pool.ulBigPageTable := rfl
      simp only [same, none_]
      rw [BigPool.mmFreePoolPages, BigPool.mmAllocatePoolPages, erase_cons_head]

theorem insert (aligned : PageAligned b.va) (fresh : ∀ range ∈ σ.pool.pages, range.1 ≠ b.va)
    (pages : b.numberOfPages ≠ 0) (type : b.poolType ≠ .maxPoolType)
    (room : bigPageRoom σ.pool.ulBigPageTable b.va = some i) (f : PoolTotals → PoolTotals) :
    BigKept ⟨((σ.pool.mmAllocatePoolPages b.va b.numberOfPages).track i b
      (σ.pool.ulpBigPageTableCount + 1)).account b.poolType f, b :: σ.blocks⟩ := by
  have absent : ∀ c ∈ σ.blocks, c.va ≠ b.va := by
    intro c member
    exact fresh (c.va, c.numberOfPages) (kept.pages.mem_iff.mpr (mem_map_of_mem member))
  have holds : slotOf b = .holds b.va := (slotOf_holds aligned).mpr rfl
  have tracks : Tracks b = true := by
    rw [Tracks, holds]
    rfl
  rw [bigPageRoom_eq] at room
  have vacant : Tracks (σ.pool.ulBigPageTable i) = false := by
    rw [Tracks, (Probe.probe_some room).1]
    rfl
  have more := census_update Tracks σ.pool.ulBigPageTable i b
  rw [vacant, tracks, kept.entries, Bool.toNat_true, Bool.toNat_false] at more
  constructor
  · have chained := kept.chained.insert (fun j held => ?_) room
    · rw [← holds, ← slotOf_update] at chained
      exact chained
    · have same := (slotOf_holds aligned).mp held
      refine absent _ (kept.members.mpr ⟨⟨j, rfl⟩, ?_⟩) same
      rw [Tracks, held]
      rfl
  · intro c
    rw [mem_cons, kept.members]
    constructor
    · rintro (rfl | ⟨⟨j, rfl⟩, inUse⟩)
      · exact ⟨⟨i, update_self ..⟩, tracks⟩
      · refine ⟨⟨j, update_of_ne ?_ _ _⟩, inUse⟩
        rintro rfl
        rw [vacant] at inUse
        exact Bool.false_ne_true inUse
    · rintro ⟨⟨j, rfl⟩, inUse⟩
      by_cases here : j = i
      · rw [here]
        exact Or.inl (update_self ..)
      · have other : update σ.pool.ulBigPageTable i b j = σ.pool.ulBigPageTable j :=
          update_of_ne here _ _
        exact Or.inr ⟨⟨j, other.symm⟩, inUse⟩
  · rw [map_cons, nodup_cons]
    refine ⟨fun member => ?_, kept.distinct⟩
    obtain ⟨c, inside, same⟩ := mem_map.mp member
    exact absent c inside same
  · exact forall_mem_cons.mpr ⟨⟨aligned, pages, type⟩, fun c member => kept.valid member⟩ _
  · have bound : census Tracks σ.pool.ulBigPageTable ≤ Nat.card (Fin 1024) := census_le
    rw [Nat.card_eq_fintype_card, Fintype.card_fin, kept.entries, ← kept.counted] at bound
    rw [length_cons, ← kept.counted]
    refine (BitVec.toNat_add _ _).trans ?_
    rw [show (1 : BitVec 32).toNat = 1 from rfl, Nat.mod_eq_of_lt (by omega)]
  · exact more
  · exact kept.pages.cons _

/-- The entry of a block becomes vacant with it. -/
theorem remove (aligned : PageAligned p)
    (found : bigPageOf σ.pool.ulBigPageTable p = some i) (f : PoolTotals → PoolTotals) :
    BigKept ⟨((σ.pool.track i ⟨bigPageTombstone, 0, 0, 0, .nonPagedPool⟩
      (σ.pool.ulpBigPageTableCount - 1)).account (σ.pool.ulBigPageTable i).poolType f).mmFreePoolPages p
        (σ.pool.ulBigPageTable i).numberOfPages, σ.blocks.eraseP (·.va == p)⟩ := by
  obtain ⟨member, same⟩ := kept.block aligned found
  obtain ⟨b, before, rest, _, isP, split, erased⟩ :=
    exists_of_eraseP member (p := (·.va == p)) (beq_iff_eq.mpr same)
  have named := eq_of_beq isP
  rw [erased]
  have order : σ.blocks.Perm (b :: (before ++ rest)) := by
    rw [split]
    exact perm_middle
  have distinct := (order.map BigPage.va).nodup_iff.mp kept.distinct
  rw [map_cons, nodup_cons, named] at distinct
  have others : ∀ c ∈ before ++ rest, c.va ≠ p := by
    rintro c inside rfl
    exact distinct.1 (mem_map_of_mem inside)
  have entry : σ.pool.ulBigPageTable i = b := by
    obtain here | other := mem_cons.mp (order.mem_iff.mp member)
    · exact here
    · exact absurd same (others _ other)
  have tracks : Tracks (σ.pool.ulBigPageTable i) = true := (kept.members.mp member).2
  have fewer := census_update Tracks σ.pool.ulBigPageTable i ⟨bigPageTombstone, 0, 0, 0, .nonPagedPool⟩
  rw [tracks, kept.entries, order.length_eq, show Tracks ⟨bigPageTombstone, 0, 0, 0, .nonPagedPool⟩ = false
    from rfl, Bool.toNat_true, Bool.toNat_false, length_cons] at fewer
  constructor
  · have chained := kept.chained.remove i
    rw [show Slot.removed = slotOf ⟨bigPageTombstone, 0, 0, 0, .nonPagedPool⟩ from rfl,
      ← slotOf_update] at chained
    exact chained
  · intro c
    have inside : c ∈ before ++ rest ↔ c ∈ σ.blocks ∧ c.va ≠ p := by
      rw [order.mem_iff, mem_cons]
      constructor
      · exact fun inside => ⟨Or.inr inside, others c inside⟩
      · rintro ⟨rfl | inside, other⟩
        · exact absurd named other
        · exact inside
    rw [inside, kept.members]
    constructor
    · rintro ⟨⟨⟨j, rfl⟩, inUse⟩, other⟩
      refine ⟨⟨j, update_of_ne ?_ _ _⟩, inUse⟩
      rintro rfl
      exact other same
    · rintro ⟨⟨j, rfl⟩, inUse⟩
      by_cases here : j = i
      · rw [here] at inUse
        have vacant : Tracks (update σ.pool.ulBigPageTable i
            ⟨bigPageTombstone, 0, 0, 0, .nonPagedPool⟩ i) = false := by
          rw [update_self]
          rfl
        exact absurd (vacant.symm.trans inUse) Bool.false_ne_true
      · have other : update σ.pool.ulBigPageTable i
            ⟨bigPageTombstone, 0, 0, 0, .nonPagedPool⟩ j = σ.pool.ulBigPageTable j :=
          update_of_ne here _ _
        refine ⟨⟨⟨j, other.symm⟩, inUse⟩, fun taken => here ?_⟩
        have taken : (σ.pool.ulBigPageTable j).va = p := (congrArg BigPage.va other).symm.trans taken
        exact kept.chained.unique ((slotOf_holds aligned).mpr taken) ((slotOf_holds aligned).mpr same)
  · exact distinct.2
  · intro c inside
    exact kept.valid (order.mem_iff.mpr (mem_cons_of_mem _ inside))
  · have counted := kept.counted
    rw [order.length_eq, length_cons] at counted
    refine (BitVec.toNat_sub_of_le ?_).trans ?_
    · rw [BitVec.le_def, counted]
      exact Nat.succ_le_succ (Nat.zero_le _)
    · rw [counted]
      rfl
  · exact Nat.succ.inj fewer
  · have pages := (kept.pages.trans (order.map _)).erase (p, (σ.pool.ulBigPageTable i).numberOfPages)
    rw [map_cons, named, ← entry, erase_cons_head] at pages
    exact pages

theorem step (stepped : BigStep σ action σ') : BigKept σ' := by
  cases action with
  | allocate poolType numberOfBytes tag va =>
    obtain ⟨_, mapped, pool', result, allocated, rfl⟩ := stepped
    rw [ulAllocatePoolWithTag] at allocated
    split at allocated
    next =>
      obtain ⟨rfl, rfl⟩ := Prod.mk.inj allocated
      exact kept
    next valid =>
      dsimp only at allocated
      split at allocated
      next =>
        obtain ⟨rfl, rfl⟩ := Prod.mk.inj allocated
        exact kept
      next start =>
        obtain ⟨aligned, fresh⟩ := mapped start rfl
        split at allocated
        next =>
          obtain ⟨rfl, rfl⟩ := Prod.mk.inj allocated
          rw [BigPool.mmFreePoolPages, BigPool.mmAllocatePoolPages, erase_cons_head]
          exact kept
        next i room =>
          obtain ⟨rfl, rfl⟩ := Prod.mk.inj allocated
          exact kept.insert (b := ⟨start, tag, (numberOfBytes - 1) / 4096 + 1, numberOfBytes, poolType⟩)
            aligned fresh (numberOfPages_ne_zero _) (fun type => valid (Or.inl type)) room _
  | free p tag =>
    obtain ⟨aligned, pool', freed, rfl⟩ := stepped
    rw [ulFreePoolWithTag] at freed
    split at freed
    next => cases freed
    next i found =>
      dsimp only at freed
      split at freed
      next => cases freed
      next =>
        split at freed
        next => cases freed
        next =>
          obtain rfl := Option.some.inj freed
          exact kept.remove aligned found _

end BigKept

/-- The table and the pool as the system starts. -/
def BigState.start (totals : PoolType → PoolTotals) : BigState :=
  ⟨⟨fun _ => ⟨0, 0, 0, 0, .nonPagedPool⟩, 0, totals, []⟩, []⟩

/-- In every run the table tracks the blocks, and refuses another one when it is full. -/
theorem big_page_runs {totals : PoolType → PoolTotals} {actions : List BigAction} {σ : BigState}
    (run : Run BigStep (.start totals) actions σ) :
    BigTracked σ ∧ ∀ poolType numberOfBytes tag va, σ.blocks.length = 1024 →
      ulAllocatePoolWithTag σ.pool poolType numberOfBytes tag va = (σ.pool, none) := by
  have kept : BigKept σ := by
    apply run.invariant (P := BigKept)
    · exact fun kept stepped => kept.step stepped
    · have unused : census Tracks (fun (_ : Fin 1024) => ⟨0, 0, 0, 0, .nonPagedPool⟩) = 0 :=
        census_eq_zero.mpr fun _ => rfl
      refine ⟨.empty, ?_, .nil, nofun, rfl, unused, .nil⟩
      intro b
      refine iff_of_false not_mem_nil ?_
      rintro ⟨⟨i, rfl⟩, inUse⟩
      exact Bool.false_ne_true inUse
  exact ⟨kept.tracked, kept.refused⟩

/-- Two blocks of one place, of which the first one is freed. -/
theorem big_page_runs_collide : ∃ σ : BigState,
    σ.blocks = [⟨0xC1401000, 7, 2, 5000, .pagedPool⟩] ∧ BigTracked σ := by
  have mapped : ∀ {va : BitVec 32} {pages : List (BitVec 32 × BitVec 32)}, PageAligned va →
      (∀ range ∈ pages, range.1 ≠ va) → ∀ start, some va = some start →
        PageAligned start ∧ ∀ range ∈ pages, range.1 ≠ start := by
    rintro va pages aligned fresh start ⟨⟩
    exact ⟨aligned, fresh⟩
  have run : Run BigStep (.start fun _ => ⟨0, 0, 0⟩)
      [.allocate .nonPagedPool 4096 5 (some 0xC1001000), .allocate .pagedPool 5000 7 (some 0xC1401000),
        .free 0xC1001000 5] _ :=
    .next ⟨by decide, mapped ⟨by decide, by decide⟩ (forall_mem_nil _), _, _, rfl, rfl⟩ <|
    .next ⟨by decide, mapped ⟨by decide, by decide⟩ (forall_mem_singleton.mpr (by decide)),
      _, _, rfl, rfl⟩ <|
    .next ⟨⟨by decide, by decide⟩, _, rfl, rfl⟩ <| .refl _
  exact ⟨_, rfl, (big_page_runs run).1⟩

end VeaOS.Mm
