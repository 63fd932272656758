import Mathlib.Data.List.Nodup
import VeaOS.Mm.FrameSupply

/-! Frames that follow one another. The scan counts the free frames in a row and
ends at the lowest run that is long enough; its frames are then taken off the
free list one by one, from wherever they are. -/
namespace VeaOS.Mm
open Foundation DoubleList List

/-- The frames from `s` on are free. -/
def FreeRun (total : Nat) (db : PipDatabase) (pages s : Nat) : Prop :=
  s + pages ≤ total ∧ ∀ x, s ≤ x → x < s + pages → (db.pip x).state = .free

def LowestRun (total : Nat) (db : PipDatabase) (pages s : Nat) : Prop :=
  FreeRun total db pages s ∧ ∀ s', FreeRun total db pages s' → s ≤ s'

/-- The frames from `s` on are allocated and off the list; the other frames, and the order
of those on the list, are as they were. -/
structure RunTaken (total : Nat) (db db' : PipDatabase) (xs : List Nat) (pages s : Nat) : Prop where
  list : Exact total db' (xs.filter (· ∉ List.range' s pages))
  inside {x} : s ≤ x → x < s + pages → (db'.pip x).state = .active ∧
    (db'.pip x).referenceCount = 1 ∧ (db'.pip x).shareCount = 1
  outside {x} : ¬ (s ≤ x ∧ x < s + pages) → (db'.pip x).state = (db.pip x).state ∧
    (db'.pip x).referenceCount = (db.pip x).referenceCount ∧
    (db'.pip x).shareCount = (db.pip x).shareCount

section Scan
variable {db : PipDatabase}

theorem contiguousScan_lowest (db : PipDatabase) (left i found startIndex : Nat)
    (broken : ∀ s', FreeRun (i + left) db pages s' → i - found ≤ s') (begun : 0 < found → startIndex = i - found)
    (within : found ≤ i) (more : found < pages) :
    match contiguousScan db pages left i found startIndex with
    | some s => ∀ s', FreeRun (i + left) db pages s' → s ≤ s'
    | none => ∀ s', ¬ FreeRun (i + left) db pages s' := by
  induction left generalizing i found startIndex with
  | zero =>
    intro s' run
    have := broken s' run
    have := run.1
    omega
  | succ left ih =>
    rw [show i + (left + 1) = i + 1 + left by omega] at broken ⊢
    rw [contiguousScan]
    by_cases isFree : (db.pip i).state = .free
    · rw [if_pos isFree]
      have origin : (if found = 0 then i else startIndex) = i - found := by
        split
        next => omega
        next => exact begun (by omega)
      simp only [origin]
      by_cases done : found + 1 = pages
      · rw [if_pos done]
        exact broken
      · rw [if_neg done]
        apply ih (i + 1) (found + 1) (i - found)
        · intro s' run
          have := broken s' run
          omega
        · omega
        · omega
        · omega
    · rw [if_neg isFree]
      apply ih (i + 1) 0
      · -- a run that begins in front of the frame would hold it
        intro s' run
        by_contra before
        have behind := broken s' run
        have := run.1
        exact isFree (run.2 i (by omega) (by omega))
      · omega
      · omega
      · omega

end Scan

section Taken
variable {db : PipDatabase} {xs : List Nat}

@[simp] theorem share_setFlink : ((db.setFlink i v).pip x).shareCount = (db.pip x).shareCount := by
  by_cases same : x = i <;> simp [PipDatabase.setFlink, PipDatabase.setPip, same]

@[simp] theorem share_setBlink : ((db.setBlink i v).pip x).shareCount = (db.pip x).shareCount := by
  by_cases same : x = i <;> simp [PipDatabase.setBlink, PipDatabase.setPip, same]

theorem share_unlink (db : PipDatabase) (i x : Nat) :
    ((mmpUnlinkFreePage db i).pip x).shareCount = (db.pip x).shareCount := by
  unfold mmpUnlinkFreePage
  cases (db.pip i).blink <;> cases (db.pip i).flink <;> simp

theorem activate_inside (db : PipDatabase) (i : Nat) : ((activate db i).pip i).state = .active ∧
    ((activate db i).pip i).referenceCount = 1 ∧ ((activate db i).pip i).shareCount = 1 := by
  rw [activate, setPip_self]
  exact ⟨rfl, rfl, rfl⟩

theorem activate_outside (db : PipDatabase) (other : x ≠ i) : ((activate db i).pip x).state = (db.pip x).state ∧
    ((activate db i).pip x).referenceCount = (db.pip x).referenceCount ∧
    ((activate db i).pip x).shareCount = (db.pip x).shareCount := by
  rw [activate, setPip_of_ne other, share_unlink, (sameFrames_unlink db i).state,
    (sameFrames_unlink db i).referenceCount]
  exact ⟨rfl, rfl, rfl⟩

theorem activateAll_outside (db : PipDatabase) (pages : List Nat) (absent : x ∉ pages) :
    ((pages.foldl activate db).pip x).state = (db.pip x).state ∧
    ((pages.foldl activate db).pip x).referenceCount = (db.pip x).referenceCount ∧
    ((pages.foldl activate db).pip x).shareCount = (db.pip x).shareCount := by
  induction pages generalizing db with
  | nil => exact ⟨rfl, rfl, rfl⟩
  | cons i rest ih =>
    rw [mem_cons, not_or] at absent
    obtain ⟨state, references, share⟩ := activate_outside db absent.1
    rw [foldl_cons, ← state, ← references, ← share]
    exact ih _ absent.2

theorem activateAll_inside (pages : List Nat) (member : x ∈ pages) :
    ((pages.foldl activate db).pip x).state = .active ∧
    ((pages.foldl activate db).pip x).referenceCount = 1 ∧
    ((pages.foldl activate db).pip x).shareCount = 1 := by
  induction pages generalizing db with
  | nil => exact absurd member not_mem_nil
  | cons i rest ih =>
    rw [foldl_cons]
    by_cases later : x ∈ rest
    · exact ih later
    · obtain rfl : x = i := (mem_cons.mp member).resolve_right later
      obtain ⟨state, references, share⟩ := activateAll_outside (activate db x) rest later
      rw [state, references, share]
      exact activate_inside db x

theorem Exact.activateAll (list : Exact total db xs) (distinct : pages.Nodup) (listed : ∀ x ∈ pages, x ∈ xs) :
    Exact total (pages.foldl activate db) (xs.diff pages) := by
  induction pages generalizing db xs with
  | nil => exact list
  | cons i rest ih =>
    obtain ⟨apart, distinct⟩ := nodup_cons.mp distinct
    rw [foldl_cons, diff_cons]
    have taken : (.active : PipState) ≠ .free := by decide
    apply ih (list.unlink (listed i mem_cons_self) taken) distinct
    intro x later
    rw [mem_erase_of_ne]
    · exact listed x (mem_cons_of_mem _ later)
    · rintro rfl
      exact apart later

theorem Exact.takeRun (list : Exact total db xs) (run : FreeRun total db pages s) :
    RunTaken total db ((range' s pages).foldl activate db) xs pages s := by
  constructor
  · rw [← Nodup.sdiff_eq_filter list.linked.distinct]
    apply list.activateAll (nodup_range' ..)
    intro x member
    rw [mem_range'_1] at member
    have below := run.1
    exact list.members.mpr ⟨by omega, run.2 x member.1 member.2⟩
  · intro x low high
    exact activateAll_inside _ (mem_range'_1.mpr ⟨low, high⟩)
  · intro x outside
    exact activateAll_outside _ _ (mt mem_range'_1.mp outside)

end Taken

theorem RunTaken.changed (taken : RunTaken total db db' xs pages s) (run : FreeRun total db pages s)
    (positive : 0 < pages) : db' ≠ db := by
  rintro rfl
  have active := (taken.inside (Nat.le_refl s) (by omega)).1
  rw [run.2 s (Nat.le_refl s) (by omega)] at active
  cases active

/-- The lowest run is allocated and its base returned; without a run nothing changes. -/
theorem contiguous_lowest (highestAddress : BitVec 32) (db : PipDatabase) (xs : List Nat)
    (list : Exact (mmTotalPages highestAddress) db xs) (pageCount : BitVec 32) (nonzero : pageCount ≠ 0) :
    ∃ db' address, mmAllocateContiguousPhysicalPages (mmTotalPages highestAddress) db pageCount = (db', address) ∧
      (∀ s, LowestRun (mmTotalPages highestAddress) db pageCount.toNat s →
        address.toNat = s * 4096 ∧ RunTaken (mmTotalPages highestAddress) db db' xs pageCount.toNat s) ∧
      (address = 0 ∧ db' = db ↔ ¬ ∃ s, FreeRun (mmTotalPages highestAddress) db pageCount.toNat s) := by
  have positive : 0 < pageCount.toNat := by
    have : pageCount.toNat ≠ 0 := fun zero => nonzero (BitVec.eq_of_toNat_eq zero)
    omega
  have bounded : mmTotalPages highestAddress ≤ 0x100000 := by
    have := highestAddress.isLt
    rw [mmTotalPages]
    omega
  have lowest := contiguousScan_lowest db (mmTotalPages highestAddress) 0 0 0xFFFFFFFF
    (fun _ _ => Nat.zero_le _) (by omega) (Nat.le_refl 0) positive
  rw [Nat.zero_add] at lowest
  rw [mmAllocateContiguousPhysicalPages, if_neg nonzero]
  cases scanned : contiguousScan db pageCount.toNat (mmTotalPages highestAddress) 0 0 0xFFFFFFFF with
  | none =>
    rw [scanned] at lowest
    refine ⟨db, 0, rfl, fun s run => absurd run.1 (lowest s), ?_⟩
    exact iff_of_true ⟨rfl, rfl⟩ fun found => found.elim lowest
  | some s =>
    rw [scanned] at lowest
    obtain ⟨_, ends, free⟩ := Frames.contiguous_spec scanned nonzero
    have run : FreeRun (mmTotalPages highestAddress) db pageCount.toNat s := ⟨ends, free⟩
    have taken := list.takeRun run
    refine ⟨_, _, rfl, fun s' lowest' => ?_, ?_⟩
    · obtain rfl : s' = s := Nat.le_antisymm (lowest'.2 s run) (lowest s' lowest'.1)
      refine ⟨?_, taken⟩
      rw [BitVec.toNat_ofNat]
      omega
    · exact iff_of_false (fun same => taken.changed run positive same.2) fun none => none ⟨s, run⟩

/-- The third page of three is the only run of one. -/
theorem contiguous_lowest_threePages : ∃ db' address,
    mmAllocateContiguousPhysicalPages (mmTotalPages 0x3000) threePages 1 = (db', address) ∧
      (∀ s, LowestRun (mmTotalPages 0x3000) threePages 1 s →
        address.toNat = s * 4096 ∧ ∃ xs, RunTaken (mmTotalPages 0x3000) threePages db' xs 1 s) ∧
      (address = 0 ∧ db' = threePages ↔ ¬ ∃ s, FreeRun (mmTotalPages 0x3000) threePages 1 s) := by
  obtain ⟨xs, list⟩ := quiet_threePages.list
  obtain ⟨db', address, allocated, run, none_⟩ := contiguous_lowest 0x3000 threePages xs list 1 (by decide)
  exact ⟨db', address, allocated, fun s lowest => ⟨(run s lowest).1, xs, (run s lowest).2⟩, none_⟩

def onePage : PipDatabase where
  pip x := ⟨none, none, 0, 0, if x = 0 then .free else .reserved⟩
  mmFirstFreePip := some 0
  mmFirstZeroedPip := none

/-- The frame at the address 0 is allocated, and its base is the value that means failure. -/
theorem frame_zero_allocated : Exact (mmTotalPages 0x1000) onePage [0] ∧
    (∃ s, FreeRun (mmTotalPages 0x1000) onePage 1 s) ∧
    ∃ db', mmAllocateContiguousPhysicalPages (mmTotalPages 0x1000) onePage 1 = (db', 0) ∧ db' ≠ onePage := by
  have list : Exact (mmTotalPages 0x1000) onePage [0] := by
    refine ⟨⟨by simp, rfl, fun {l x r} split => ?_⟩, fun {x} => ?_⟩
    · cases l with
      | nil =>
        obtain ⟨rfl, rfl⟩ := cons.inj split
        exact ⟨rfl, rfl⟩
      | cons y l => simp at split
    · by_cases same : x = 0
      · simp [same, onePage, mmTotalPages]
      · simp [same, onePage]
  have run : FreeRun (mmTotalPages 0x1000) onePage 1 0 := by
    refine ⟨by decide, fun x _ high => ?_⟩
    obtain rfl : x = 0 := by omega
    rfl
  exact ⟨list, ⟨0, run⟩, _, rfl, (list.takeRun run).changed run (by decide)⟩

end VeaOS.Mm
