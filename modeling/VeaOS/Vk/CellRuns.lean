import VeaOS.Foundation.Runs
import VeaOS.Vk.HiveCells

/-! Runs of allocations on a hive that was loaded, with the cells that were given
out so far. -/
namespace VeaOS.Vk
open Foundation Transition

structure Cell where
  isVolatile : Bool
  offset : BitVec 32
  pointer : Pointer Nat
  size : Nat

structure AllocState where
  hive : Hive
  cells : List Cell

inductive AllocAction where
  | volatileCell (size : BitVec 32) (growth : Growth)
  | stableCell (size : BitVec 32) (growth : Growth)
  | volatileBin (growth : Growth)
  | stableBin (growth : Growth)

/-- The cell that was given out, if one was. -/
def AllocState.give (cells : List Cell) (isVolatile : Bool) (size : BitVec 32) :
    Hive × Option (BitVec 32 × Pointer Nat) → AllocState
  | (H, none) => ⟨H, cells⟩
  | (H, some (offset, pointer)) => ⟨H, ⟨isVolatile, offset, pointer, size.toNat⟩ :: cells⟩

def allocate (σ : AllocState) : AllocAction → AllocState
  | .volatileCell size growth => .give σ.cells true size (vkpAllocateVolatileCell σ.hive size growth)
  | .stableCell size growth => .give σ.cells false size (vkpAllocateStableCell σ.hive size growth)
  | .volatileBin growth => ⟨(hvAllocateVolatileCell σ.hive growth).getD σ.hive, σ.cells⟩
  | .stableBin growth => ⟨(hvAllocateStableCell σ.hive growth).getD σ.hive, σ.cells⟩

def AllocStep (σ : AllocState) (action : AllocAction) (σ' : AllocState) : Prop :=
  allocate σ action = σ'

/-- A cell fits a bin behind its header, or is refused before one is taken. -/
def CellAdmits (σ : AllocState) : AllocAction → Prop
  | .volatileCell size growth => size.toNat ≤ 4072 ∨
      volatileFull σ.hive size = true ∧ hvAllocateVolatileCell σ.hive growth = none
  | .stableCell size growth => StableFits σ.hive size growth
  | .volatileBin _ | .stableBin _ => True

/-- A cell lies behind the header of a bin of its class. -/
def Cell.InBin (H : Hive) (cell : Cell) : Prop :=
  if cell.isVolatile then
    cell.pointer.block ∈ H.volatileBins ∧ sizeofBaseBlock ≤ cell.pointer.offset ∧
      cell.pointer.offset + cell.size ≤ vkBinSize.toNat
  else ∃ bin ∈ H.stableBins, cell.pointer.block = bin.binBase ∧ sizeofBaseBlock ≤ cell.pointer.offset ∧
    cell.pointer.offset + cell.size ≤ bin.binSize.toNat

def Cell.Apart (cell other : Cell) : Prop :=
  ∀ b i, cell.pointer.Spans cell.size b i → ¬ other.pointer.Spans other.size b i

/-- The bins are different blocks, and each cell has bytes of its own in one. -/
structure CellsApart (σ : AllocState) : Prop where
  bins : (σ.hive.stableBins.map StableBin.binBase ++ σ.hive.volatileBins).Nodup
  inBin : ∀ cell ∈ σ.cells, cell.InBin σ.hive
  apart : σ.cells.Pairwise Cell.Apart

/-- A step leaves the bytes of the cells that there are. -/
def Undisturbed (σ σ' : AllocState) : Prop :=
  (∃ given, σ'.cells = given ++ σ.cells) ∧
    ∀ cell ∈ σ.cells, ∀ b i, cell.pointer.Spans cell.size b i → σ'.hive.memory b i = σ.hive.memory b i

structure CellsKept (σ : AllocState) : Prop where
  kept : BinsKept σ.hive
  cells : CellsApart σ
  used : ∀ cell ∈ σ.cells, ∀ b i, cell.pointer.Spans cell.size b i → ¬ Fresh σ.hive b i

theorem Cell.InBin.grows {cell : Cell} (inBin : cell.InBin H) (grows : Grows H H') : cell.InBin H' := by
  rw [InBin] at inBin ⊢
  split
  next isVolatile =>
    rw [if_pos isVolatile] at inBin
    obtain ⟨more, grown⟩ := grows.volatile
    exact ⟨by rw [grown]; exact List.mem_append_left _ inBin.1, inBin.2⟩
  next isStable =>
    rw [if_neg isStable] at inBin
    obtain ⟨bin, member, rest⟩ := inBin
    obtain ⟨more, grown⟩ := grows.stable
    exact ⟨bin, by rw [grown]; exact List.mem_append_left _ member, rest⟩

namespace CellsKept
variable {σ : AllocState}

theorem grows (kept : CellsKept σ) (grows : Grows σ.hive H') :
    CellsKept ⟨H', σ.cells⟩ ∧ Undisturbed σ ⟨H', σ.cells⟩ := by
  refine ⟨⟨grows.kept, ⟨grows.kept.apart, ?_, kept.cells.apart⟩, ?_⟩, ⟨[], rfl⟩, ?_⟩
  · exact fun cell member => (kept.cells.inBin cell member).grows grows
  · exact fun cell member b i spans fresh => kept.used cell member b i spans (grows.fewer fresh)
  · exact fun cell member b i spans => grows.memory (kept.used cell member b i spans)

theorem give (kept : CellsKept σ) (allocated : Allocated σ.hive H' full pointer size)
    (inBin : Cell.InBin H' ⟨isVolatile, offset, pointer, size⟩) :
    CellsKept ⟨H', ⟨isVolatile, offset, pointer, size⟩ :: σ.cells⟩ ∧
      Undisturbed σ ⟨H', ⟨isVolatile, offset, pointer, size⟩ :: σ.cells⟩ := by
  obtain ⟨older, undisturbed⟩ := kept.grows allocated.toGrows
  refine ⟨⟨older.kept, ⟨older.cells.bins, ?_, ?_⟩, ?_⟩, ⟨[_], rfl⟩, undisturbed.2⟩
  · exact List.forall_mem_cons.mpr ⟨inBin, older.cells.inBin⟩
  · refine List.pairwise_cons.mpr ⟨fun cell member b i spans old => ?_, older.cells.apart⟩
    exact kept.used cell member b i old (allocated.fresh spans)
  · exact List.forall_mem_cons.mpr ⟨fun b i spans => allocated.used spans, older.used⟩

theorem step (kept : CellsKept σ) (admitted : CellAdmits σ action) (stepped : AllocStep σ action σ') :
    CellsKept σ' ∧ Undisturbed σ σ' := by
  obtain rfl := stepped
  cases action with
  | volatileCell size growth =>
    rw [allocate]
    obtain fits | ⟨full, failed⟩ := admitted
    · rcases called : vkpAllocateVolatileCell σ.hive size growth with ⟨H', result⟩
      obtain ⟨refused, given⟩ := allocateVolatile_spec kept.kept fits called
      obtain _ | ⟨offset, pointer⟩ := result
      · obtain rfl := refused rfl
        exact kept.grows (.refl kept.kept)
      · obtain ⟨allocated, inBin⟩ := given offset pointer rfl
        refine kept.give allocated ?_
        rw [Cell.InBin, if_pos rfl]
        exact ⟨inBin, allocated.header, allocated.inside⟩
    · have refused : vkpAllocateVolatileCell σ.hive size growth = (σ.hive, none) := by
        simp only [vkpAllocateVolatileCell, full, failed, if_true, Option.bind_none, ite_self]
      rw [refused]
      exact kept.grows (.refl kept.kept)
  | stableCell size growth =>
    rw [allocate]
    rcases called : vkpAllocateStableCell σ.hive size growth with ⟨H', result⟩
    obtain ⟨refused, given⟩ := allocateStable_spec kept.kept admitted called
    obtain _ | ⟨offset, pointer⟩ := result
    · obtain rfl := refused rfl
      exact kept.grows (.refl kept.kept)
    · obtain ⟨allocated, _, bin, member, same, size⟩ := given offset pointer rfl
      refine kept.give allocated ?_
      rw [Cell.InBin, if_neg Bool.false_ne_true]
      refine ⟨bin, List.mem_of_mem_tail member, same, allocated.header, ?_⟩
      rw [size]
      exact allocated.inside
  | volatileBin growth =>
    rw [allocate]
    cases grown : hvAllocateVolatileCell σ.hive growth with
    | none => exact kept.grows (.refl kept.kept)
    | some H' => exact kept.grows (volatile_grows kept.kept grown).1
  | stableBin growth =>
    rw [allocate]
    cases grown : hvAllocateStableCell σ.hive growth with
    | none => exact kept.grows (.refl kept.kept)
    | some H' => exact kept.grows (stable_grows kept.kept grown).1

end CellsKept

/-- The cells of a run are apart, and its next step leaves their bytes. -/
theorem cell_runs {image : Nat → Byte} {hiveLength : BitVec 32} {pool : Memory Nat} {pooled : Bool}
    {H : Hive} {actions : List AllocAction} {σ : AllocState}
    (loaded : vkpInitializeSystemHive image hiveLength pool pooled = some H)
    (run : Run (Guarded CellAdmits AllocStep) ⟨H, []⟩ actions σ) :
    CellsApart σ ∧ ∀ action σ', CellAdmits σ action → AllocStep σ action σ' → Undisturbed σ σ' := by
  have kept : CellsKept σ := by
    apply run.invariant (P := CellsKept)
    · rintro σ action σ' kept ⟨admitted, stepped⟩
      exact (kept.step admitted stepped).1
    · have kept := loaded_kept loaded
      exact ⟨kept, ⟨kept.apart, nofun, .nil⟩, nofun⟩
  exact ⟨kept.cells, fun _ _ admitted stepped => (kept.step admitted stepped).2⟩

/-- The smallest image that loads: a header, a bin and its root. -/
def smallestImage : Nat → Byte :=
  (((Memory.write32 (fun (_ : Unit) _ => 0) ⟨(), 0⟩ keyHeaderSig).write32 ⟨(), 0x1000⟩
    keyBinSig).write16 ⟨(), 0x101C⟩ keyDirSig) ()

def smallestHive : Option Hive := vkpInitializeSystemHive smallestImage 0x2000 (fun _ _ => 0) true

theorem smallestHive_loads : smallestHive.isSome = true := by decide

/-- Two cells of a volatile bin and one of a stable bin. -/
theorem cell_runs_small : ∃ σ, σ.cells.length = 3 ∧ CellsApart σ := by
  have loaded := Option.some_get smallestHive_loads
  have run : Run (Guarded CellAdmits AllocStep) ⟨smallestHive.get smallestHive_loads, []⟩
      [.volatileCell 30 ⟨true, 0⟩, .stableCell 4072 ⟨true, 0⟩, .volatileCell 4072 ⟨true, 0⟩] _ :=
    .next ⟨Or.inl (by decide), rfl⟩ <|
    .next ⟨StableFits.of_grown (by decide) (by decide), rfl⟩ <|
    .next ⟨Or.inl (by decide), rfl⟩ <| .refl _
  exact ⟨_, by decide, (cell_runs loaded.symm run).1⟩

/-- A cell larger than a bin is given out, and so is one where the hive did not grow. -/
theorem cell_overruns :
    (∃ H σ, vkpInitializeSystemHive smallestImage 0x2000 (fun _ _ => 0) true = some H ∧
      Run AllocStep ⟨H, []⟩ [.volatileCell 5000 ⟨true, 0⟩] σ ∧ ¬ CellsApart σ) ∧
    ∃ H σ, vkpInitializeSystemHive smallestImage 0x2000 (fun _ _ => 0) true = some H ∧
      Run AllocStep ⟨H, []⟩ [.stableCell 4000 ⟨true, 0⟩, .stableCell 200 ⟨false, 0⟩] σ ∧
      ¬ CellsApart σ := by
  have loaded := Option.some_get smallestHive_loads
  constructor
  · have run : Run AllocStep ⟨smallestHive.get smallestHive_loads, []⟩
        [.volatileCell 5000 ⟨true, 0⟩] _ := .next rfl <| .refl _
    refine ⟨_, _, loaded.symm, run, fun apart => ?_⟩
    obtain ⟨_, _, inside⟩ := apart.inBin _ List.mem_cons_self
    exact absurd inside (by decide)
  · have run : Run AllocStep ⟨smallestHive.get smallestHive_loads, []⟩
        [.stableCell 4000 ⟨true, 0⟩, .stableCell 200 ⟨false, 0⟩] _ := .next rfl <| .next rfl <| .refl _
    refine ⟨_, _, loaded.symm, run, fun apart => ?_⟩
    obtain ⟨bin, member, same, _, inside⟩ := apart.inBin _ List.mem_cons_self
    have rooms : ∀ bin ∈ (allocate (allocate ⟨smallestHive.get smallestHive_loads, []⟩
        (.stableCell 4000 ⟨true, 0⟩)) (.stableCell 200 ⟨false, 0⟩)).hive.stableBins,
        bin.binBase = 1 → bin.binSize.toNat < 4024 + 200 := by decide
    exact absurd inside (Nat.not_le_of_lt (rooms bin member same.symm))

end VeaOS.Vk
