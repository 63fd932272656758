import VeaOS.Vocpi.ResourceTemplate

/-! Which buffers the two loops read right. Both visit the same items, and a template is read as it
was written when each of its interrupt items names one interrupt. -/
namespace VeaOS.Vocpi

open List

section Scan
variable {σ : Type} {memory : CrsMemory} {size : Nat} {visit : Nat → σ → σ} {touches touches' : Nat → List Nat}
  {index : Nat} {visited : List Nat}

/-- The items from an index on, up to the end of the buffer or the end tag, with all that is read
of them in the buffer. The small items are listed. -/
inductive Walk (memory : CrsMemory) (size : Nat) (touches : Nat → List Nat) : Nat → List Nat → Prop where
  | past {index : Nat} (outside : size ≤ index) : Walk memory size touches index []
  | last {index : Nat} (inside : index < size) (small : acpiResourceIsLarge (memory index) = false)
      (tag : acpiSmallResourceTag (memory index) = acpiSmallTagEnd) : Walk memory size touches index []
  | large {index : Nat} {visited : List Nat} (inside : index < size)
      (large : acpiResourceIsLarge (memory index) = true) (low : offset index 1 < size)
      (high : offset index 2 < size) (rest : Walk memory size touches (nextIndex memory index) visited) :
      Walk memory size touches index visited
  | small {index : Nat} {visited : List Nat} (inside : index < size)
      (small : acpiResourceIsLarge (memory index) = false)
      (tag : acpiSmallResourceTag (memory index) ≠ acpiSmallTagEnd) (touched : ∀ r ∈ touches index, r < size)
      (rest : Walk memory size touches (nextIndex memory index) visited) :
      Walk memory size touches index (index :: visited)

theorem Walk.congr (walk : Walk memory size touches index visited)
    (fewer : ∀ i ∈ visited, ∀ r ∈ touches' i, r ∈ touches i) : Walk memory size touches' index visited := by
  induction walk with
  | past outside => exact .past outside
  | last inside small tag => exact .last inside small tag
  | large inside large low high _ ih => exact .large inside large low high (ih fewer)
  | small inside small tag touched _ ih =>
    exact .small inside small tag (fun r member => touched r (fewer _ mem_cons_self r member))
      (ih fun i member => fewer i (mem_cons_of_mem _ member))

theorem scanItems_of_walk (walk : Walk memory size touches index visited) (visit : Nat → σ → σ) :
    ∃ bound more, (∀ r ∈ more, r < size) ∧ ∀ fuel, bound ≤ fuel → ∀ state reads,
      scanItems memory size visit touches (fuel + 1) index state reads =
        some (visited.foldl (fun state i => visit i state) state, reads ++ more) := by
  induction walk with
  | past outside =>
    refine ⟨0, [], fun _ member => absurd member not_mem_nil, fun fuel _ state reads => ?_⟩
    rw [scanItems, if_neg (Nat.not_lt.mpr outside), append_nil]
    rfl
  | @last index inside small tag =>
    refine ⟨0, [index], fun r member => mem_singleton.mp member ▸ inside, fun fuel _ state reads => ?_⟩
    rw [scanItems, if_pos inside, small, if_neg Bool.false_ne_true, if_pos tag]
    rfl
  | @large index visited inside large low high _ ih =>
    obtain ⟨bound, more, within, scanned⟩ := ih
    refine ⟨bound + 1, [index, offset index 1, offset index 2] ++ more, fun r member => ?_,
      fun fuel enough state reads => ?_⟩
    · obtain here | later := mem_append.mp member
      · simp only [mem_cons, not_mem_nil, or_false] at here
        obtain rfl | rfl | rfl := here
        · exact inside
        · exact low
        · exact high
      · exact within r later
    · obtain ⟨fuel, rfl⟩ := Nat.exists_eq_add_of_le' (Nat.le_trans (Nat.le_add_left 1 bound) enough)
      rw [scanItems, if_pos inside, if_pos large, scanned fuel (Nat.le_of_succ_le_succ enough),
        append_assoc]
  | @small index visited inside small tag touched _ ih =>
    obtain ⟨bound, more, within, scanned⟩ := ih
    refine ⟨bound + 1, index :: touches index ++ more, fun r member => ?_, fun fuel enough state reads => ?_⟩
    · obtain here | later := mem_append.mp member
      · obtain rfl | here := mem_cons.mp here
        · exact inside
        · exact touched r here
      · exact within r later
    · obtain ⟨fuel, rfl⟩ := Nat.exists_eq_add_of_le' (Nat.le_trans (Nat.le_add_left 1 bound) enough)
      rw [scanItems, if_pos inside, small, if_neg Bool.false_ne_true, if_neg tag,
        scanned fuel (Nat.le_of_succ_le_succ enough), append_assoc]
      rfl

theorem scanItems_reads {fuel : Nat} {state state' : σ} {reads all : List Nat}
    (scanned : scanItems memory size visit touches fuel index state reads = some (state', all)) :
    reads <+: all := by
  induction fuel generalizing index state reads with
  | zero => cases scanned
  | succ fuel ih =>
    rw [scanItems] at scanned
    split at scanned
    · split at scanned
      · exact (prefix_append reads _).trans (ih scanned)
      · split at scanned
        · cases scanned
          exact prefix_append reads _
        · exact (prefix_append reads _).trans (ih scanned)
    · cases scanned
      exact prefix_refl _

theorem walk_of_scanItems {fuel : Nat} {state state' : σ} {reads all : List Nat}
    (scanned : scanItems memory size visit touches fuel index state reads = some (state', all))
    (within : ∀ r ∈ all, r < size) :
    ∃ visited, Walk memory size touches index visited ∧
      state' = visited.foldl (fun state i => visit i state) state := by
  induction fuel generalizing index state reads with
  | zero => cases scanned
  | succ fuel ih =>
    rw [scanItems] at scanned
    split at scanned
    next inside =>
      split at scanned
      next large =>
        have read := (scanItems_reads scanned).subset
        obtain ⟨visited, walk, same⟩ := ih scanned
        refine ⟨visited, .large inside large (within _ (read ?_)) (within _ (read ?_)) walk, same⟩ <;> simp
      next small =>
        have small := Bool.eq_false_iff.mpr small
        split at scanned
        next tag =>
          cases scanned
          exact ⟨[], .last inside small tag, rfl⟩
        next tag =>
          have read := (scanItems_reads scanned).subset
          obtain ⟨visited, walk, same⟩ := ih scanned
          refine ⟨index :: visited, .small inside small tag (fun r member => within r (read ?_)) walk, same⟩
          exact mem_append_right _ (mem_cons_of_mem _ member)
    next outside =>
      cases scanned
      exact ⟨[], .past (Nat.not_lt.mp outside), rfl⟩

end Scan

section Passes
variable {memory : CrsMemory} {size : Nat} {visited : List Nat}

/-- What the second loop writes for an item. -/
def described (memory : CrsMemory) (index : Nat) : List RequiredResource := fillItem memory index []

theorem fillItem_eq (memory : CrsMemory) (index : Nat) (descriptors : List RequiredResource) :
    fillItem memory index descriptors = descriptors ++ described memory index := by
  unfold described fillItem
  dsimp only
  split
  · rfl
  · split
    · rfl
    · exact (append_nil descriptors).symm

theorem countItem_eq (memory : CrsMemory) (index resourceCount : Nat) :
    countItem memory index resourceCount = resourceCount + (described memory index).length := by
  unfold described countItem fillItem
  dsimp only
  by_cases io : acpiSmallResourceTag (memory index) = acpiSmallTagIo
  · rw [if_pos (Or.inl io), if_pos io]
    rfl
  · by_cases irq : acpiSmallResourceTag (memory index) = acpiSmallTagIrq
    · rw [if_pos (Or.inr irq), if_neg io, if_pos irq]
      rfl
    · rw [if_neg (not_or.mpr ⟨io, irq⟩), if_neg io, if_neg irq]
      rfl

theorem fill_foldl (memory : CrsMemory) (visited : List Nat) (descriptors : List RequiredResource) :
    visited.foldl (fun found i => fillItem memory i found) descriptors =
      descriptors ++ visited.flatMap (described memory) := by
  induction visited generalizing descriptors with
  | nil => exact (append_nil descriptors).symm
  | cons index visited ih => rw [foldl_cons, ih, fillItem_eq, append_assoc, flatMap_cons]

theorem count_foldl (memory : CrsMemory) (visited : List Nat) (resourceCount : Nat) :
    visited.foldl (fun count i => countItem memory i count) resourceCount =
      resourceCount + (visited.flatMap (described memory)).length := by
  induction visited generalizing resourceCount with
  | nil => rfl
  | cons index visited ih =>
    rw [foldl_cons, ih, countItem_eq, flatMap_cons, length_append, Nat.add_assoc]

theorem fillTouches_of_nil {index : Nat} (none : described memory index = []) : fillTouches memory index = [] := by
  unfold described fillItem at none
  unfold fillTouches
  dsimp only at none ⊢
  split at none
  next => cases none
  next io =>
    split at none
    next => cases none
    next irq => rw [if_neg io, if_neg irq]

/-- What a query returns when it has found these resources. -/
def crsOutcome (found : List RequiredResource) (allocated : Bool) (reads reads' : List Nat) : CrsOutcome :=
  if found = [] then ⟨.notFound, none, 0, reads⟩
  else if !allocated then ⟨.insufficientResources, none, found.length, reads⟩
  else ⟨.success, some ⟨allocationSize found.length, 1, 1, 1, found⟩, found.length, reads ++ reads'⟩

theorem queryCrsBuffer_of_walk (walk : Walk memory size (fillTouches memory) 0 visited) (allocated : Bool) :
    ∃ bound reads reads', (∀ r ∈ reads ++ reads', r < size) ∧ ∀ fuel, bound ≤ fuel →
      queryCrsBuffer memory size (fuel + 1) allocated =
        some (crsOutcome (visited.flatMap (described memory)) allocated reads reads') := by
  have walk' : Walk memory size (fun _ => []) 0 visited :=
    walk.congr fun _ _ _ member => absurd member not_mem_nil
  obtain ⟨bound, reads, within, counted⟩ := scanItems_of_walk walk' (countItem memory)
  obtain ⟨bound', reads', within', filled⟩ := scanItems_of_walk walk (fillItem memory)
  refine ⟨bound + bound', reads, reads', fun r member => ?_, fun fuel enough => ?_⟩
  · exact (mem_append.mp member).elim (within r) (within' r)
  · have first : countPass memory size (fuel + 1) =
        some ((visited.flatMap (described memory)).length, reads) := by
      rw [countPass, counted fuel (Nat.le_trans (Nat.le_add_right _ _) enough), count_foldl, Nat.zero_add]
      rfl
    have second : fillPass memory size (fuel + 1) = some (visited.flatMap (described memory), reads') := by
      rw [fillPass, filled fuel (Nat.le_trans (Nat.le_add_left _ _) enough), fill_foldl]
      rfl
    rw [queryCrsBuffer, first]
    simp only [second, length_eq_zero_iff, crsOutcome]
    by_cases none : visited.flatMap (described memory) = []
    · rw [if_pos none, if_pos none]
    · rw [if_neg none, if_neg none]
      cases allocated <;> rfl

theorem walk_of_queryCrsBuffer {fuel : Nat} {outcome : CrsOutcome}
    (ended : queryCrsBuffer memory size fuel true = some outcome) (within : ∀ r ∈ outcome.reads, r < size) :
    ∃ visited, Walk memory size (fillTouches memory) 0 visited := by
  rw [queryCrsBuffer] at ended
  cases counted : countPass memory size fuel with
  | none =>
    rw [counted] at ended
    cases ended
  | some first =>
    obtain ⟨resourceCount, reads⟩ := first
    rw [counted] at ended
    simp only [Bool.not_true, Bool.false_eq_true, if_false] at ended
    split at ended
    next none =>
      cases ended
      obtain ⟨visited, walk, same⟩ := walk_of_scanItems counted within
      rw [count_foldl, none, Nat.zero_add] at same
      have nothing := length_eq_zero_iff.mp same.symm
      refine ⟨visited, walk.congr fun i member r touched => ?_⟩
      rw [fillTouches_of_nil (flatMap_eq_nil_iff.mp nothing i member)] at touched
      exact touched
    next =>
      cases filled : fillPass memory size fuel with
      | none =>
        rw [filled] at ended
        cases ended
      | some second =>
        obtain ⟨descriptors, reads'⟩ := second
        rw [filled] at ended
        cases ended
        obtain ⟨visited, walk, -⟩ := walk_of_scanItems filled fun r member =>
          within r (mem_append_right _ member)
        exact ⟨visited, walk⟩

end Passes

end VeaOS.Vocpi
