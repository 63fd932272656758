import VeaOS.Ul.HandleTable

/-! Runs of handle creations and closes on one table. The free list and the
entries of the open handles partition the table in every state reached. -/
namespace VeaOS.Ul
open Foundation Function VeaStatus
variable {Obj Thread : Type}

/-- A handle that is open, with the object and the access it was created with. -/
structure Grant (Obj : Type) where
  handle : Handle
  object : Obj
  access : AccessMask

def Grant.index (grant : Grant Obj) : Nat := handleToIndex grant.handle

inductive HandleAction (Obj Thread : Type) where
  | create (object : Option Obj) (grantedAccess : AccessMask) (thread : Thread)
  | destroy (handle : Handle)

/-- A table and the handles its callers hold. -/
structure Holders (Obj Thread : Type) where
  table : HandleTable Obj Thread
  grants : List (Grant Obj)

def handleStep (σ : Holders Obj Thread) : HandleAction Obj Thread → Holders Obj Thread
  | .create object access thread =>
    let created := ulCreateHandle σ.table object access thread
    ⟨created.1,
      match object with
      | none => σ.grants
      | some held => if created.2 = 0 then σ.grants else ⟨created.2, held, access⟩ :: σ.grants⟩
  | .destroy handle =>
    let closed := ulDestroyHandle σ.table handle
    ⟨closed.1,
      if closed.2.1 = .success then σ.grants.filter fun grant => grant.index ≠ handleToIndex handle
      else σ.grants⟩

def HandleTable.next (T : HandleTable Obj Thread) (i : Nat) : Nat := (T.entries i).nextFreeIndex

def liveEntries (T : HandleTable Obj Thread) : List Nat :=
  (List.range' 1 (T.maxEntries - 1)).filter fun i => (T.entries i).object.isSome

theorem index_handle (small : i < 0x40000000) : handleToIndex (indexToHandle i) = i := by
  simp only [handleToIndex, indexToHandle, BitVec.toNat_ushiftRight, BitVec.toNat_shiftLeft,
    BitVec.toNat_ofNat, Nat.shiftLeft_eq, Nat.shiftRight_eq_div_pow]
  omega

theorem indexToHandle_ne_zero (positive : i ≠ 0) (small : i < 0x40000000) : indexToHandle i ≠ 0 := by
  intro zero
  have index := index_handle small
  rw [zero] at index
  exact positive index.symm

theorem perm_filter_index {grants : List (Grant Obj)} (distinct : (grants.map Grant.index).Nodup)
    (member : i ∈ grants.map Grant.index) :
    (grants.map Grant.index).Perm (i :: (grants.filter fun grant => grant.index ≠ i).map Grant.index) := by
  have kept : (grants.filter fun grant => grant.index ≠ i).map Grant.index
      = (grants.map Grant.index).erase i := by
    rw [distinct.erase_eq_filter, List.filter_map]
    simp only [bne, comp_def, beq_eq_decide, decide_not]
  rw [kept]
  exact List.perm_cons_erase member

/-- A handle that is turned down: its index is zero, out of range, or not in use. -/
def Invalid (T : HandleTable Obj Thread) (handle : Handle) : Prop :=
  handleToIndex handle = 0 ∨ T.maxEntries ≤ handleToIndex handle ∨
    (T.entries (handleToIndex handle)).object = none

theorem not_invalid {T : HandleTable Obj Thread} : ¬ Invalid T handle ↔
    handleToIndex handle ≠ 0 ∧ handleToIndex handle < T.maxEntries ∧
      (T.entries (handleToIndex handle)).object ≠ none := by
  simp only [Invalid, not_or, not_le, ne_eq]

theorem ulDestroyHandle_invalid {T : HandleTable Obj Thread} (invalid : Invalid T handle) :
    (ulDestroyHandle T handle).1 = T ∧ (ulDestroyHandle T handle).2.1 ≠ .success := by
  simp only [ulDestroyHandle]
  split
  · exact ⟨rfl, noConfusion⟩
  · rcases invalid with zero | outside | unused
    · rw [if_pos (Or.inl zero)]
      exact ⟨rfl, noConfusion⟩
    · rw [if_pos (Or.inr outside)]
      exact ⟨rfl, noConfusion⟩
    · split
      · exact ⟨rfl, noConfusion⟩
      · rw [unused]
        exact ⟨rfl, noConfusion⟩

/-- The free list `free` and the open handles `grants` account for the table. -/
structure Accounted (T : HandleTable Obj Thread) (free : List Nat) (grants : List (Grant Obj)) :
    Prop where
  capacity : T.maxEntries < 0x40000000
  chain : IndexChain T.next T.firstFreeIndex free
  partition : (free ++ grants.map Grant.index).Perm (List.range' 1 (T.maxEntries - 1))
  empty {i} : i ∈ free → (T.entries i).object = none
  holds {grant} : grant ∈ grants → (T.entries grant.index).object = some grant.object ∧
    (T.entries grant.index).grantedAccess = grant.access
  count : T.handleCount = BitVec.ofNat 32 grants.length

namespace Accounted
variable {T : HandleTable Obj Thread}

theorem distinct (accounted : Accounted T free grants) : (free ++ grants.map Grant.index).Nodup :=
  accounted.partition.nodup_iff.mpr (List.nodup_range' ..)

theorem mem_iff (accounted : Accounted T free grants) :
    i ∈ free ++ grants.map Grant.index ↔ 0 < i ∧ i < T.maxEntries := by
  rw [accounted.partition.mem_iff, List.mem_range'_1]
  omega

theorem live (accounted : Accounted T free grants) :
    (grants.map Grant.index).Perm (liveEntries T) := by
  have split := accounted.partition.filter fun i => (T.entries i).object.isSome
  have unused : free.filter (fun i => (T.entries i).object.isSome) = [] := by
    apply List.filter_eq_nil_iff.mpr
    intro i member
    simp [accounted.empty member]
  have used : (grants.map Grant.index).filter (fun i => (T.entries i).object.isSome)
      = grants.map Grant.index := by
    apply List.filter_eq_self.mpr
    intro i member
    obtain ⟨grant, open_, rfl⟩ := List.mem_map.mp member
    simp [(accounted.holds open_).1]
  rw [List.filter_append, unused, used, List.nil_append] at split
  exact split

theorem length_lt (accounted : Accounted T free grants) : grants.length < 0x40000000 := by
  have sizes := accounted.partition.length_eq
  have capacity := accounted.capacity
  simp only [List.length_append, List.length_map, List.length_range'] at sizes
  omega

theorem owner (accounted : Accounted T free grants) (positive : 0 < i) (bound : i < T.maxEntries)
    (used : (T.entries i).object = some object) : ∃ grant ∈ grants, grant.index = i := by
  rcases List.mem_append.mp (accounted.mem_iff.mpr ⟨positive, bound⟩) with unused | member
  · rw [accounted.empty unused] at used
    cases used
  · exact List.mem_map.mp member

theorem create_fails (accounted : Accounted T free grants) (object : Obj) (access : AccessMask)
    (thread : Thread) : (ulCreateHandle T (some object) access thread).2 = 0 ↔ free = [] := by
  rw [← accounted.chain.nil_iff]
  simp only [ulCreateHandle, Option.isNone_some, Bool.false_eq_true, if_false]
  split
  next full => exact ⟨fun _ => full, fun _ => rfl⟩
  next some =>
    refine ⟨fun zero => absurd zero ?_, fun full => absurd full some⟩
    have member : T.firstFreeIndex ∈ free := by
      cases free with
      | nil => exact absurd accounted.chain some
      | cons x rest =>
        obtain ⟨head, _⟩ := accounted.chain
        exact head ▸ List.mem_cons_self
    have bound := accounted.mem_iff.mp (List.mem_append_left _ member)
    have capacity := accounted.capacity
    exact indexToHandle_ne_zero some (by omega)

theorem create (accounted : Accounted T (x :: free) grants) (object : Obj) (access : AccessMask)
    (thread : Thread) :
    (ulCreateHandle T (some object) access thread).2 = indexToHandle x ∧
    Accounted (ulCreateHandle T (some object) access thread).1 free
      (⟨indexToHandle x, object, access⟩ :: grants) := by
  obtain ⟨head, nonzero, rest⟩ := accounted.chain
  have bound := accounted.mem_iff.mp (List.mem_append_left _ List.mem_cons_self)
  have capacity := accounted.capacity
  have index : handleToIndex (indexToHandle x) = x := index_handle (by omega)
  obtain ⟨fresh, _⟩ := List.nodup_cons.mp accounted.distinct
  have other : ∀ i ∈ free ++ grants.map Grant.index, i ≠ x := fun i member same => fresh (same ▸ member)
  simp only [ulCreateHandle, Option.isNone_some, Bool.false_eq_true, if_false, head, if_neg nonzero]
  refine ⟨trivial, ?_⟩
  constructor
  case capacity => exact capacity
  case chain =>
    apply rest.congr
    intro i member
    simp only [HandleTable.next, update_of_ne (other i (List.mem_append_left _ member))]
  case partition =>
    rw [List.map_cons, Grant.index, index]
    exact List.perm_middle.trans accounted.partition
  case empty =>
    intro i member
    simp only [update_of_ne (other i (List.mem_append_left _ member))]
    exact accounted.empty (List.mem_cons_of_mem x member)
  case holds =>
    intro grant member
    rcases List.mem_cons.mp member with rfl | member
    · simp only [Grant.index, index, update_self, and_self]
    · have apart := other grant.index (List.mem_append_right _ (List.mem_map_of_mem member))
      simp only [update_of_ne apart]
      exact accounted.holds member
  case count =>
    simp only [accounted.count, List.length_cons, BitVec.ofNat_add]
    rfl

theorem destroy (accounted : Accounted T free grants)
    (positive : 0 < handleToIndex handle) (bound : handleToIndex handle < T.maxEntries)
    (used : (T.entries (handleToIndex handle)).object = some object) :
    (ulDestroyHandle T handle).2 = (.success, some object) ∧
    Accounted (ulDestroyHandle T handle).1 (handleToIndex handle :: free)
      (grants.filter fun grant => grant.index ≠ handleToIndex handle) := by
  have nonzero : handle ≠ 0 := by
    rintro rfl
    exact absurd positive (by decide)
  generalize closed : handleToIndex handle = i at positive bound used
  have inside : ¬ (i = 0 ∨ T.maxEntries ≤ i) := by omega
  have member : i ∈ grants.map Grant.index := List.mem_map.mpr (accounted.owner positive bound used)
  obtain ⟨_, indices, apart⟩ := List.nodup_append.mp accounted.distinct
  have released := perm_filter_index indices member
  have other : i ∉ free := fun unused => apart i unused i member rfl
  simp only [ulDestroyHandle, if_neg nonzero, closed, if_neg inside, used]
  refine ⟨trivial, ?_⟩
  constructor
  case capacity => exact accounted.capacity
  case chain =>
    apply accounted.chain.push (Nat.ne_of_gt positive) other
    · simp only [HandleTable.next, update_self]
    · intro y different
      simp only [HandleTable.next, update_of_ne different]
  case partition =>
    apply List.Perm.trans _ accounted.partition
    exact List.perm_middle.symm.trans (released.symm.append_left free)
  case empty =>
    intro j unused
    rcases List.mem_cons.mp unused with rfl | unused
    · simp only [update_self]
    · have different : j ≠ i := fun same => other (same ▸ unused)
      simp only [update_of_ne different]
      exact accounted.empty unused
  case holds =>
    intro grant kept
    obtain ⟨held, different⟩ := List.mem_filter.mp kept
    simp only [update_of_ne (of_decide_eq_true different)]
    exact accounted.holds held
  case count =>
    have sizes := released.length_eq
    simp only [List.length_map, List.length_cons] at sizes
    simp only [accounted.count, sizes, BitVec.ofNat_add]
    exact BitVec.add_sub_cancel _ _

theorem refused (accounted : Accounted T free grants)
    (unowned : ∀ grant ∈ grants, grant.index ≠ handleToIndex handle) : Invalid T handle := by
  by_contra valid
  obtain ⟨nonzero, bound, used⟩ := not_invalid.mp valid
  obtain ⟨object, used⟩ := Option.ne_none_iff_exists'.mp used
  obtain ⟨grant, member, same⟩ := accounted.owner (Nat.pos_of_ne_zero nonzero) bound used
  exact unowned grant member same

theorem step (accounted : Accounted σ.table free σ.grants) (action : HandleAction Obj Thread) :
    ∃ free, Accounted (handleStep σ action).table free (handleStep σ action).grants := by
  cases action with
  | create object access thread =>
    cases object with
    | none => exact ⟨free, accounted⟩
    | some object =>
      cases free with
      | nil =>
        have full := (accounted.create_fails object access thread).mpr rfl
        have zero : σ.table.firstFreeIndex = 0 := accounted.chain
        refine ⟨[], ?_⟩
        simp only [handleStep, if_pos full]
        simpa only [ulCreateHandle, zero, if_true, ite_self] using accounted
      | cons x rest =>
        obtain ⟨handle, after⟩ := accounted.create object access thread
        have some := mt (accounted.create_fails object access thread).mp (List.cons_ne_nil x rest)
        refine ⟨rest, ?_⟩
        simp only [handleStep, if_neg some]
        rwa [handle]
  | destroy handle =>
    by_cases invalid : Invalid σ.table handle
    · obtain ⟨same, status⟩ := ulDestroyHandle_invalid invalid
      refine ⟨free, ?_⟩
      simpa only [handleStep, same, if_neg status] using accounted
    · obtain ⟨nonzero, bound, used⟩ := not_invalid.mp invalid
      obtain ⟨object, used⟩ := Option.ne_none_iff_exists'.mp used
      have positive : 0 < handleToIndex handle := Nat.pos_of_ne_zero nonzero
      obtain ⟨status, after⟩ := accounted.destroy positive bound used
      refine ⟨handleToIndex handle :: free, ?_⟩
      simpa only [handleStep, status, if_true] using after

end Accounted

section Specification
variable {Ty : Type} [DecidableEq Ty]

/-- What callers may rely on: `free` is the free list, the open handles are the
live entries, and every handle of an open entry, and no other, is accepted. -/
structure TableCorrect (typeOf : Obj → Ty) (T : HandleTable Obj Thread) (free : List Nat)
    (grants : List (Grant Obj)) : Prop where
  chain : IndexChain T.next T.firstFreeIndex free
  partition : (free ++ liveEntries T).Perm (List.range' 1 (T.maxEntries - 1))
  live : (grants.map Grant.index).Perm (liveEntries T)
  apart : grants.Pairwise fun g h => g.index ≠ h.index
  count : T.handleCount.toNat = (liveEntries T).length
  fails {object : Obj} {access thread} :
    (ulCreateHandle T (some object) access thread).2 = 0 ↔ free = []
  failed {object access thread} : (ulCreateHandle T object access thread).2 = 0 →
    (ulCreateHandle T object access thread).1 = T
  resolves {grant kernel process handle mode desired expected} : grant ∈ grants →
    obpGetHandleTable kernel process handle mode = (some T, grant.handle) →
    obReferenceObjectByHandle typeOf kernel process handle desired expected mode =
      if ∃ type ∈ expected, typeOf grant.object ≠ type then (.objectTypeMismatch, none)
      else if mode = .userMode ∧ grant.access &&& desired ≠ desired then (.accessDenied, none)
      else (.success, some grant.object)
  notFound {target kernel process handle mode desired expected} :
    (∀ grant ∈ grants, grant.index ≠ handleToIndex target) →
    obpGetHandleTable kernel process handle mode = (some T, target) →
    (obReferenceObjectByHandle typeOf kernel process handle desired expected mode).1 ≠ .success
  notClosed {target} : (∀ grant ∈ grants, grant.index ≠ handleToIndex target) →
    (ulDestroyHandle T target).2.1 ≠ .success ∧ (ulDestroyHandle T target).1 = T
  closed {grant target} : grant ∈ grants → handleToIndex target = grant.index →
    (ulDestroyHandle T target).2 = (.success, some grant.object) ∧
    (ulDestroyHandle T target).1.firstFreeIndex = grant.index ∧
    ∀ {other kernel process handle mode desired expected}, handleToIndex other = grant.index →
      obpGetHandleTable kernel process handle mode = (some (ulDestroyHandle T target).1, other) →
      (obReferenceObjectByHandle typeOf kernel process handle desired expected mode).1 ≠ .success

theorem obReferenceObjectByHandle_invalid {typeOf : Obj → Ty} (invalid : Invalid T target)
    (selected : obpGetHandleTable kernel process handle mode = (some T, target)) :
    (obReferenceObjectByHandle typeOf kernel process handle desired expected mode).1 ≠ .success := by
  simp only [obReferenceObjectByHandle, selected]
  split
  · exact noConfusion
  · rcases invalid with zero | outside | unused
    · rw [if_pos (Or.inl zero)]
      exact noConfusion
    · rw [if_pos (Or.inr outside)]
      exact noConfusion
    · split
      · exact noConfusion
      · rw [unused]
        exact noConfusion

theorem handle_ne_zero_of_selected
    (selected : obpGetHandleTable kernel process handle mode = (some T, target)) (nonzero : target ≠ 0) :
    handle ≠ 0 := by
  rintro rfl
  rw [obpGetHandleTable, if_neg (by simp [obpIsKernelHandle])] at selected
  exact nonzero (Prod.mk.inj selected).2.symm

theorem Accounted.correct {T : HandleTable Obj Thread} (accounted : Accounted T free grants)
    (typeOf : Obj → Ty) : TableCorrect typeOf T free grants := by
  have live := accounted.live
  constructor
  case chain => exact accounted.chain
  case partition => exact (live.symm.append_left free).trans accounted.partition
  case live => exact live
  case apart =>
    obtain ⟨_, indices, _⟩ := List.nodup_append.mp accounted.distinct
    exact List.pairwise_map.mp indices
  case count =>
    have small := accounted.length_lt
    rw [← live.length_eq, accounted.count, List.length_map, BitVec.toNat_ofNat]
    omega
  case fails => exact accounted.create_fails _ _ _
  case failed =>
    intro object access thread failed
    cases object with
    | none => rfl
    | some object =>
      have empty := (accounted.create_fails object access thread).mp failed
      have zero := accounted.chain.nil_iff.mpr empty
      simp only [ulCreateHandle, zero, if_true, ite_self]
  case resolves =>
    intro grant kernel process handle mode desired expected member selected
    have bound := accounted.mem_iff.mp (List.mem_append_right _ (List.mem_map_of_mem member))
    have nonzero : grant.handle ≠ 0 := by
      intro zero
      have positive := bound.1
      rw [Grant.index, zero] at positive
      exact absurd positive (by decide)
    have inside : ¬ (handleToIndex grant.handle = 0 ∨ T.maxEntries ≤ handleToIndex grant.handle) := by
      have := bound
      simp only [Grant.index] at this
      omega
    obtain ⟨object, access⟩ := accounted.holds member
    simp only [Grant.index] at object access
    simp only [obReferenceObjectByHandle, if_neg (handle_ne_zero_of_selected selected nonzero), selected,
      if_neg inside, object, access]
  case notFound =>
    intro target kernel process handle mode desired expected unowned selected
    exact obReferenceObjectByHandle_invalid (accounted.refused unowned) selected
  case notClosed =>
    intro target unowned
    exact (ulDestroyHandle_invalid (accounted.refused unowned)).symm
  case closed =>
    intro grant target member same
    have bound := accounted.mem_iff.mp (List.mem_append_right _ (List.mem_map_of_mem member))
    rw [← same] at bound
    have used := (accounted.holds member).1
    rw [← same] at used
    obtain ⟨status, after⟩ := accounted.destroy bound.1 bound.2 used
    refine ⟨status, ?_, ?_⟩
    · rw [← same]
      exact after.chain.1
    · intro other kernel process handle mode desired expected index selected
      refine obReferenceObjectByHandle_invalid (after.refused fun kept member => ?_) selected
      rw [index, ← same]
      exact of_decide_eq_true (List.mem_filter.mp member).2

theorem accounted_create (positive : 2 ≤ capacity) (fits : capacity * 16 < 0x100000000)
    (created : ulCreateHandleTable capacity tableAllocated entriesAllocated = some T) :
    Accounted T (List.range' 1 (capacity - 1)) ([] : List (Grant Obj)) := by
  simp only [ulCreateHandleTable, if_neg (Nat.not_lt.mpr positive)] at created
  split at created
  · cases created
  split at created
  · cases created
  obtain rfl := Option.some.inj created
  constructor
  case capacity => exact (by omega : capacity < 0x40000000)
  case chain =>
    have chain : IndexChain (fun i =>
          if 1 ≤ i ∧ i < capacity then (if i = capacity - 1 then 0 else i + 1) else 0)
        (if capacity - 1 = 0 then 0 else 1) (List.range' 1 (capacity - 1)) := .range'
      (by
        intro i above below
        rw [if_pos ⟨above, by omega⟩, if_neg (by omega)])
      (by
        intro some
        rw [if_pos ⟨by omega, by omega⟩, if_pos (by omega)])
      Nat.one_pos
    rw [if_neg (by omega)] at chain
    exact chain
  case partition => exact List.Perm.of_eq (List.append_nil _)
  case empty => exact fun _ => rfl
  case holds => exact fun member => absurd member List.not_mem_nil
  case count => rfl

/-- `sizeof(HANDLE_TABLE_ENTRY)` is 16; the tables of the source have 100 and
1024 entries. -/
theorem handle_table_runs (typeOf : Obj → Ty) (fits : capacity * 16 < 0x100000000)
    (created : ulCreateHandleTable capacity tableAllocated entriesAllocated = some T)
    (actions : List (HandleAction Obj Thread)) :
    let σ := actions.foldl handleStep ⟨T, []⟩
    ∃ free, TableCorrect typeOf σ.table free σ.grants := by
  have positive : 2 ≤ capacity := by
    by_contra small
    rw [ulCreateHandleTable, if_pos (Nat.lt_of_not_le small)] at created
    cases created
  have reached : ∃ free, Accounted (actions.foldl handleStep ⟨T, []⟩).table free
      (actions.foldl handleStep ⟨T, []⟩).grants := by
    refine List.foldlRecOn actions handleStep
      (motive := fun σ : Holders Obj Thread => ∃ free, Accounted σ.table free σ.grants) ?_ ?_
    · exact ⟨_, accounted_create positive fits created⟩
    · rintro σ ⟨free, accounted⟩ action _
      exact accounted.step action
  obtain ⟨free, accounted⟩ := reached
  exact ⟨free, accounted.correct typeOf⟩

theorem handle_table_runs_reuse :
    let σ := ([.create (some 7) 3 (), .create (some 8) 1 (), .destroy 5, .create (some 9) 2 ()] :
      List (HandleAction Nat Unit)).foldl handleStep
        ⟨(ulCreateHandleTable 3 true true).get rfl, []⟩
    ∃ free, TableCorrect (fun object => object % 2) σ.table free σ.grants :=
  handle_table_runs _ (by decide) (rfl : ulCreateHandleTable 3 true true = some _) _

end Specification
end VeaOS.Ul
