import VeaOS.Rtl.BitmapRuns

/-! The search for the runs of clear bits. Where the longest runs are asked for, only one of the
first runs ever gives way to a longer one. -/
namespace VeaOS.Rtl
open BitRuns Function List

def clearRuns (bitMap : RtlBitmap) : List RtlBitmapRun :=
  (maximalRuns (clearAt bitMap) bitMap.sizeOfBitMap).map fun run => ⟨run.1, run.2⟩

section Search
variable {bitMap : RtlBitmap} {p : Nat}

def clearRunsFrom (bitMap : RtlBitmap) (p : Nat) : List RtlBitmapRun :=
  (runsFrom (clearAt bitMap) bitMap.sizeOfBitMap p).map fun run => ⟨run.1, run.2⟩

theorem nextForwardRun_eq (few : bitMap.sizeOfBitMap + 31 < 0x100000000) (inside : p ≤ bitMap.sizeOfBitMap) :
    rtlFindNextForwardRunClear bitMap p = (nextRun (clearAt bitMap) bitMap.sizeOfBitMap p,
      runStart (clearAt bitMap) bitMap.sizeOfBitMap p) := by
  have lengths : Lengths (rtlpGetLengthOfRunSet bitMap) (rtlpGetLengthOfRunClear bitMap) (clearAt bitMap)
      bitMap.sizeOfBitMap maxIndex := clear_lengths few
  rw [rtlFindNextForwardRunClear]
  split
  · next outside =>
      obtain rfl : p = bitMap.sizeOfBitMap := by omega
      simp [nextRun, runStart, runLength]
  · have start : runStart (clearAt bitMap) bitMap.sizeOfBitMap p ≤ bitMap.sizeOfBitMap := runStart_le inside
    have place : wrap (p + rtlpGetLengthOfRunSet bitMap p maxIndex) =
        runStart (clearAt bitMap) bitMap.sizeOfBitMap p := by
      rw [lengths.skips]
      exact Nat.mod_eq_of_lt (by rw [runStart] at start; omega)
    simp only [place]
    refine congrArg (·, _) ((lengths.lengths _).resolve_right ?_)
    rintro ⟨_, whole⟩
    have atMost : runLength (clearAt bitMap)
        (bitMap.sizeOfBitMap - runStart (clearAt bitMap) bitMap.sizeOfBitMap p)
        (runStart (clearAt bitMap) bitMap.sizeOfBitMap p) ≤
          bitMap.sizeOfBitMap - runStart (clearAt bitMap) bitMap.sizeOfBitMap p := runLength_le
    rw [maxIndex] at whole
    omega

theorem clearRunsFrom_eq (boundary : Boundary (clearAt bitMap) bitMap.sizeOfBitMap p) : clearRunsFrom bitMap p =
    if nextRun (clearAt bitMap) bitMap.sizeOfBitMap p = 0 then []
    else ⟨runStart (clearAt bitMap) bitMap.sizeOfBitMap p, nextRun (clearAt bitMap) bitMap.sizeOfBitMap p⟩ ::
      clearRunsFrom bitMap (runEnd (clearAt bitMap) bitMap.sizeOfBitMap p) := by
  rw [clearRunsFrom, runsFrom_eq boundary]
  split <;> rfl

end Search

section Record
variable {bitMap : RtlBitmap} {done todo : List RtlBitmapRun} {s : RunSearch}

def filledSlots (runArray : Nat → RtlBitmapRun) (k : Nat) : List RtlBitmapRun := (List.range k).map runArray

/-- The runs of `done` are recorded, and those of `todo` come from the index on. -/
structure Recorded (bitMap : RtlBitmap) (done todo : List RtlBitmapRun) (s : RunSearch) : Prop where
  boundary : Boundary (clearAt bitMap) bitMap.sizeOfBitMap s.fromIndex
  left : clearRunsFrom bitMap s.fromIndex = todo
  run : s.run = done.length
  slots : filledSlots s.runArray done.length = done
  smallest : done = [] ∧ s.smallestRun = 0 ∨ s.smallestRun < done.length ∧
    ∀ i < done.length, (s.runArray s.smallestRun).numberOfBits ≤ (s.runArray i).numberOfBits

theorem filledSlots_update (runArray : Nat → RtlBitmapRun) (k : Nat) (x : RtlBitmapRun) :
    filledSlots (update runArray k x) (k + 1) = filledSlots runArray k ++ [x] := by
  rw [filledSlots, filledSlots, range_succ, map_append, map_singleton, update_self]
  refine congrArg (· ++ [x]) (map_congr_left fun i member => ?_)
  exact update_of_ne (mem_range.mp member).ne _ _

def RunSearch.record (s : RunSearch) (x : RtlBitmapRun) : RunSearch where
  runArray := Function.update s.runArray s.run x
  run := s.run + 1
  fromIndex := wrap (x.startingIndex + x.numberOfBits)
  smallestRun := if x.numberOfBits < (Function.update s.runArray s.run x s.smallestRun).numberOfBits then s.run
    else s.smallestRun

theorem Recorded.record (recorded : Recorded bitMap done (x :: todo) s) :
    Recorded bitMap (done ++ [x]) todo (s.record x) := by
  have small := bitMap.small
  have inside := recorded.boundary.inside
  have next := clearRunsFrom_eq recorded.boundary
  rw [recorded.left] at next
  split at next
  · cases next
  obtain ⟨rfl, rfl⟩ := cons.inj next
  have last : runEnd (clearAt bitMap) bitMap.sizeOfBitMap s.fromIndex ≤ bitMap.sizeOfBitMap := runEnd_le inside
  have place : wrap (runStart (clearAt bitMap) bitMap.sizeOfBitMap s.fromIndex +
      nextRun (clearAt bitMap) bitMap.sizeOfBitMap s.fromIndex) =
        runEnd (clearAt bitMap) bitMap.sizeOfBitMap s.fromIndex :=
    Nat.mod_eq_of_lt (by rw [runEnd] at last; omega)
  have length : ∀ x : RtlBitmapRun, (done ++ [x]).length = done.length + 1 := fun x => by simp
  generalize nextRun (clearAt bitMap) bitMap.sizeOfBitMap s.fromIndex = n at *
  refine ⟨?_, ?_, ?_, ?_, .inr ?_⟩
  · rw [RunSearch.record, place]
    exact Boundary.runEnd inside
  · rw [RunSearch.record, place]
  · rw [RunSearch.record, recorded.run, length]
  · rw [RunSearch.record, length, recorded.run, filledSlots_update, recorded.slots]
  · rw [length, RunSearch.record, recorded.run]
    rcases recorded.smallest with ⟨rfl, zero⟩ | ⟨below, least⟩
    · simp [zero]
    · have other : s.smallestRun ≠ done.length := below.ne
      have kept : ∀ i < done.length, ∀ x : RtlBitmapRun,
          update s.runArray done.length x i = s.runArray i :=
        fun i before x => update_of_ne before.ne _ _
      simp only [kept s.smallestRun below]
      split
      · next less =>
          refine ⟨Nat.lt_succ_self _, fun i before => ?_⟩
          rw [update_self]
          rcases (Nat.lt_succ_iff_lt_or_eq.mp before) with earlier | rfl
          · rw [kept i earlier]
            exact less.le.trans (least i earlier)
          · rw [update_self]
      · next more =>
          refine ⟨Nat.lt_succ_of_lt below, fun i before => ?_⟩
          rw [kept _ below]
          rcases (Nat.lt_succ_iff_lt_or_eq.mp before) with earlier | rfl
          · rw [kept i earlier]
            exact least i earlier
          · rw [update_self]
            exact Nat.le_of_not_lt more

theorem recordRuns_spec (few : bitMap.sizeOfBitMap + 31 < 0x100000000) (left : Nat)
    (recorded : Recorded bitMap done todo s) : ∃ done' todo', done' ++ todo' = done ++ todo ∧
      Recorded bitMap done' todo' (recordRuns bitMap left s) ∧
        (done'.length = done.length + left ∨ done'.length < done.length + left ∧ todo' = []) := by
  induction left generalizing done todo s with
  | zero => exact ⟨done, todo, rfl, recorded, .inl rfl⟩
  | succ left ih =>
    have next := clearRunsFrom_eq recorded.boundary
    rw [recorded.left] at next
    rw [recordRuns, nextForwardRun_eq few recorded.boundary.inside]
    simp only
    split at next
    · next none_ =>
        rw [if_pos none_]
        exact ⟨done, todo, rfl, recorded, .inr ⟨by omega, next⟩⟩
    · next some_ =>
        subst next
        rw [if_neg some_]
        obtain ⟨done', todo', same, recorded', ended⟩ := ih recorded.record
        refine ⟨done', todo', by rw [same, append_assoc]; rfl, recorded', ?_⟩
        rw [length_append, length_singleton] at ended
        exact ended.imp (fun full => by omega) fun short => ⟨by omega, short.2⟩

end Record

section Replace
variable {bitMap : RtlBitmap} {s : RunSearch} {p size m : Nat} {done todo : List RtlBitmapRun}
  {best x : RtlBitmapRun}

theorem replaceRuns_step (few : bitMap.sizeOfBitMap + 31 < 0x100000000) (inside : s.fromIndex ≤ bitMap.sizeOfBitMap)
    (more : nextRun (clearAt bitMap) bitMap.sizeOfBitMap s.fromIndex ≠ 0) (fuel : Nat) :
    replaceRuns bitMap size (fuel + 1) s = replaceRuns bitMap size fuel {
      replaceSmallest size (runStart (clearAt bitMap) bitMap.sizeOfBitMap s.fromIndex)
        (nextRun (clearAt bitMap) bitMap.sizeOfBitMap s.fromIndex) s with
      fromIndex := s.fromIndex + nextRun (clearAt bitMap) bitMap.sizeOfBitMap s.fromIndex } := by
  have last : runEnd (clearAt bitMap) bitMap.sizeOfBitMap s.fromIndex ≤ bitMap.sizeOfBitMap := runEnd_le inside
  have start : s.fromIndex ≤ runStart (clearAt bitMap) bitMap.sizeOfBitMap s.fromIndex := le_runStart
  have whole : wrap (s.fromIndex + nextRun (clearAt bitMap) bitMap.sizeOfBitMap s.fromIndex) =
      s.fromIndex + nextRun (clearAt bitMap) bitMap.sizeOfBitMap s.fromIndex :=
    Nat.mod_eq_of_lt (by rw [runEnd] at last; omega)
  rw [replaceRuns, nextForwardRun_eq few inside]
  simp only [if_neg more, whole]

theorem replaceRuns_skip (few : bitMap.sizeOfBitMap + 31 < 0x100000000) (inside : p ≤ bitMap.sizeOfBitMap)
    (more : nextRun (clearAt bitMap) bitMap.sizeOfBitMap p ≠ 0)
    (kept : nextRun (clearAt bitMap) bitMap.sizeOfBitMap p ≤ (s.runArray s.smallestRun).numberOfBits)
    (later : p ≤ s.fromIndex) (before : s.fromIndex ≤ runEnd (clearAt bitMap) bitMap.sizeOfBitMap p) :
    ∃ rounds, ∀ fuel, replaceRuns bitMap size (fuel + rounds) s =
      replaceRuns bitMap size fuel { s with fromIndex := runEnd (clearAt bitMap) bitMap.sizeOfBitMap p } := by
  obtain ⟨left, far⟩ : ∃ left, runEnd (clearAt bitMap) bitMap.sizeOfBitMap p - s.fromIndex ≤ left :=
    ⟨_, Nat.le_refl _⟩
  induction left generalizing s with
  | zero =>
    have arrived : s.fromIndex = runEnd (clearAt bitMap) bitMap.sizeOfBitMap p := by omega
    exact ⟨0, fun fuel => by rw [← arrived]; rfl⟩
  | succ left ih =>
    rcases before.lt_or_eq with before | arrived
    · have last : runEnd (clearAt bitMap) bitMap.sizeOfBitMap p ≤ bitMap.sizeOfBitMap := runEnd_le inside
      have inside' : s.fromIndex ≤ bitMap.sizeOfBitMap := before.le.trans last
      have length := nextRun_within inside later before
      have end_ : runEnd (clearAt bitMap) bitMap.sizeOfBitMap p =
        runStart (clearAt bitMap) bitMap.sizeOfBitMap p + nextRun (clearAt bitMap) bitMap.sizeOfBitMap p := rfl
      have rest : nextRun (clearAt bitMap) bitMap.sizeOfBitMap s.fromIndex ≠ 0 := by omega
      have shorter : ¬ nextRun (clearAt bitMap) bitMap.sizeOfBitMap s.fromIndex >
          (s.runArray s.smallestRun).numberOfBits := by omega
      obtain ⟨rounds, skipped⟩ := ih (s := { s with
        fromIndex := s.fromIndex + nextRun (clearAt bitMap) bitMap.sizeOfBitMap s.fromIndex })
        kept (by simp only; omega) (by simp only; omega) (by simp only; omega)
      refine ⟨rounds + 1, fun fuel => ?_⟩
      rw [← Nat.add_assoc, replaceRuns_step few inside' rest, replaceSmallest, if_neg shorter]
      exact skipped fuel
    · exact ⟨0, fun fuel => by rw [← arrived]; rfl⟩

/-- What the slots hold in the second loop: the runs that were recorded, with the best of the later
ones so far in the place of the smallest. -/
structure Replacing (bitMap : RtlBitmap) (done todo : List RtlBitmapRun) (m : Nat) (best : RtlBitmapRun)
    (s : RunSearch) : Prop where
  boundary : Boundary (clearAt bitMap) bitMap.sizeOfBitMap s.fromIndex
  left : clearRunsFrom bitMap s.fromIndex = todo
  run : s.run = done.length
  smallest : s.smallestRun = m
  slot : s.runArray s.smallestRun = best
  slots : filledSlots s.runArray done.length = done.set m best

/-- The longer one of two runs, and the first of two equal ones. -/
def longer (best x : RtlBitmapRun) : RtlBitmapRun := if x.numberOfBits > best.numberOfBits then x else best

theorem longer_le (best x : RtlBitmapRun) : x.numberOfBits ≤ (longer best x).numberOfBits := by
  rw [longer]
  split
  · exact Nat.le_refl _
  · omega

theorem filledSlots_set (runArray : Nat → RtlBitmapRun) (k m : Nat) (x : RtlBitmapRun) :
    filledSlots (update runArray m x) k = (filledSlots runArray k).set m x := by
  refine ext_getElem (by simp [filledSlots]) fun i inside _ => ?_
  simp only [filledSlots, getElem_map, getElem_range, getElem_set]
  by_cases same : m = i
  · rw [same, update_self, if_pos rfl]
  · rw [update_of_ne (Ne.symm same), if_neg same]

theorem Replacing.replaceSmallest (replacing : Replacing bitMap done todo m best s) (x : RtlBitmapRun) :
    let s' := Rtl.replaceSmallest done.length x.startingIndex x.numberOfBits s
    s'.run = done.length ∧ s'.smallestRun = m ∧ filledSlots s'.runArray done.length = done.set m (longer best x) ∧
      s'.runArray s'.smallestRun = longer best x := by
  have slot := replacing.slot
  rw [Rtl.replaceSmallest, longer, slot]
  split
  · have kept : (range done.length).foldl (fun smallest run => if x.numberOfBits <
        (update s.runArray s.smallestRun ⟨x.startingIndex, x.numberOfBits⟩ smallest).numberOfBits
          then run else smallest) s.smallestRun = s.smallestRun := by
      refine foldl_fixed' (fun run => ?_) _
      rw [update_self, if_neg (Nat.lt_irrefl _)]
    simp only [kept]
    refine ⟨trivial, replacing.smallest, ?_, update_self ..⟩
    rw [filledSlots_set, replacing.slots, replacing.smallest, set_set]
  · exact ⟨replacing.run, replacing.smallest, replacing.slots, slot⟩

theorem Replacing.replace (few : bitMap.sizeOfBitMap + 31 < 0x100000000)
    (replacing : Replacing bitMap done (x :: todo) m best s) :
    ∃ rounds s', (∀ fuel, replaceRuns bitMap done.length (fuel + rounds) s = replaceRuns bitMap done.length fuel s') ∧
      Replacing bitMap done todo m (longer best x) s' := by
  have inside := replacing.boundary.inside
  have next := clearRunsFrom_eq replacing.boundary
  rw [replacing.left] at next
  split at next
  · cases next
  next more =>
  obtain ⟨rfl, later⟩ := cons.inj next
  obtain ⟨run, smallest, slots, slot⟩ := replacing.replaceSmallest
    ⟨_, nextRun (clearAt bitMap) bitMap.sizeOfBitMap s.fromIndex⟩
  have atLeast := longer_le best ⟨runStart (clearAt bitMap) bitMap.sizeOfBitMap s.fromIndex,
    nextRun (clearAt bitMap) bitMap.sizeOfBitMap s.fromIndex⟩
  rw [← slot] at atLeast
  have end_ : runEnd (clearAt bitMap) bitMap.sizeOfBitMap s.fromIndex = runStart (clearAt bitMap)
    bitMap.sizeOfBitMap s.fromIndex + nextRun (clearAt bitMap) bitMap.sizeOfBitMap s.fromIndex := rfl
  have start : s.fromIndex ≤ runStart (clearAt bitMap) bitMap.sizeOfBitMap s.fromIndex := le_runStart
  let s₁ : RunSearch := {
    Rtl.replaceSmallest done.length (runStart (clearAt bitMap) bitMap.sizeOfBitMap s.fromIndex)
      (nextRun (clearAt bitMap) bitMap.sizeOfBitMap s.fromIndex) s with
    fromIndex := s.fromIndex + nextRun (clearAt bitMap) bitMap.sizeOfBitMap s.fromIndex }
  have stepped : ∀ fuel, replaceRuns bitMap done.length (fuel + 1) s = replaceRuns bitMap done.length fuel s₁ :=
    replaceRuns_step few inside more
  obtain ⟨rounds, skipped⟩ : ∃ rounds, ∀ fuel, replaceRuns bitMap done.length (fuel + rounds) s₁ =
      replaceRuns bitMap done.length fuel
        { s₁ with fromIndex := runEnd (clearAt bitMap) bitMap.sizeOfBitMap s.fromIndex } :=
    replaceRuns_skip few inside more atLeast (Nat.le_add_right _ _) (end_ ▸ Nat.add_le_add_right start _)
  refine ⟨rounds + 1, { s₁ with fromIndex := runEnd (clearAt bitMap) bitMap.sizeOfBitMap s.fromIndex },
    fun fuel => ?_, Boundary.runEnd inside, later.symm, run, smallest, slot, slots⟩
  rw [← Nat.add_assoc, stepped, skipped]

theorem replaceRuns_more (ended : replaceRuns bitMap size fuel s = some s') (extra : Nat) :
    replaceRuns bitMap size (fuel + extra) s = some s' := by
  induction fuel generalizing s with
  | zero => cases ended
  | succ fuel ih =>
    rw [replaceRuns] at ended
    rw [Nat.succ_add, replaceRuns]
    simp only at ended ⊢
    split at ended
    · next none_ => rw [if_pos none_, ended]
    · next some_ =>
        rw [if_neg some_]
        exact ih ended

theorem Replacing.finish (few : bitMap.sizeOfBitMap + 31 < 0x100000000)
    (replacing : Replacing bitMap done todo m best s) : ∃ fuel s', replaceRuns bitMap done.length fuel s = some s' ∧
      s'.run = done.length ∧ filledSlots s'.runArray done.length = done.set m (todo.foldl longer best) := by
  induction todo generalizing best s with
  | nil =>
    have next := clearRunsFrom_eq replacing.boundary
    rw [replacing.left] at next
    split at next
    · next none_ =>
        refine ⟨1, s, ?_, replacing.run, replacing.slots⟩
        rw [replaceRuns, nextForwardRun_eq few replacing.boundary.inside]
        exact if_pos none_
    · cases next
  | cons x todo ih =>
    obtain ⟨rounds, s', stepped, replacing'⟩ := replacing.replace few
    obtain ⟨fuel, s'', ended, run, slots⟩ := ih replacing'
    exact ⟨fuel + rounds, s'', (stepped fuel).trans ended, run, slots⟩

end Replace

section Claim
variable {bitMap : RtlBitmap} {runArray : Nat → RtlBitmapRun} {runs done todo found : List RtlBitmapRun}
  {capacity m : Nat} {best x : RtlBitmapRun}

/-- As many distinct runs as there is room for, of which none is shorter than one that is left out. -/
structure LongestRuns (runs : List RtlBitmapRun) (capacity : Nat) (found : List RtlBitmapRun) : Prop where
  count : found.length = min capacity runs.length
  distinct : found.Nodup
  member : ∀ x ∈ found, x ∈ runs
  longest : ∀ x ∈ runs, x ∉ found → ∀ y ∈ found, x.numberOfBits ≤ y.numberOfBits

/-- Two of the first runs are shorter than two of the later ones. -/
def Crowded (runs : List RtlBitmapRun) (capacity : Nat) : Prop :=
  ∃ x ∈ runs.take capacity, ∃ y ∈ runs.take capacity, x ≠ y ∧
    ∃ u ∈ runs.drop capacity, ∃ v ∈ runs.drop capacity, u ≠ v ∧
      ∀ short ∈ [x, y], ∀ long ∈ [u, v], short.numberOfBits < long.numberOfBits

theorem foldl_longer (best : RtlBitmapRun) (todo : List RtlBitmapRun) :
    (todo.foldl longer best = best ∨ todo.foldl longer best ∈ todo ∧
      best.numberOfBits < (todo.foldl longer best).numberOfBits) ∧
    ∀ x ∈ todo, x.numberOfBits ≤ (todo.foldl longer best).numberOfBits := by
  induction todo generalizing best with
  | nil => exact ⟨.inl rfl, fun x member => absurd member not_mem_nil⟩
  | cons x todo ih =>
    obtain ⟨kept, atLeast⟩ := ih (longer best x)
    rw [foldl_cons]
    have first : (longer best x).numberOfBits ≤ (todo.foldl longer (longer best x)).numberOfBits := by
      rcases kept with same | ⟨_, less⟩
      · rw [same]
      · exact less.le
    refine ⟨?_, fun y member => ?_⟩
    · by_cases more : x.numberOfBits > best.numberOfBits
      · have chosen : longer best x = x := if_pos more
        rw [chosen] at kept first ⊢
        exact .inr ⟨kept.elim (fun same => by rw [same]; exact mem_cons_self)
          fun ⟨member, _⟩ => mem_cons_of_mem _ member, more.trans_le first⟩
      · have chosen : longer best x = best := if_neg more
        rw [chosen] at kept ⊢
        exact kept.imp_right fun ⟨member, less⟩ => ⟨mem_cons_of_mem _ member, less⟩
    · rcases mem_cons.mp member with rfl | member
      · exact (longer_le best y).trans first
      · exact atLeast y member

section Chosen
variable (below : m < done.length)
include below

theorem mem_set_of_ne (member : x ∈ done) (other : x ≠ done[m]) : x ∈ done.set m best := by
  obtain ⟨i, inside, rfl⟩ := mem_iff_getElem.mp member
  have apart : m ≠ i := by
    rintro rfl
    exact other rfl
  exact mem_iff_getElem.mpr ⟨i, by simpa using inside, getElem_set_ne apart _⟩

variable (distinct : (done ++ todo).Nodup) (least : ∀ y ∈ done, done[m].numberOfBits ≤ y.numberOfBits)
include distinct least

theorem longestRuns_chosen_iff : LongestRuns (done ++ todo) done.length (done.set m (todo.foldl longer done[m])) ↔
    ¬ Crowded (done ++ todo) done.length := by
  obtain ⟨chosen, atLeast⟩ := foldl_longer done[m] todo
  have apart : ∀ x ∈ done, x ∉ todo := fun x inside later => (disjoint_of_nodup_append distinct) inside later
  have slot : done[m] ∈ done := getElem_mem below
  rw [Crowded, take_left, drop_left]
  constructor
  · rintro longest ⟨x, xIn, y, yIn, differ, u, uIn, v, vIn, differ', shorter⟩
    -- one of the two short runs keeps its slot, and one of the two long ones gets none
    obtain ⟨short, shortIn, keeps⟩ : ∃ short ∈ [x, y], short ∈ done.set m (todo.foldl longer done[m]) := by
      by_cases same : x = done[m]
      · exact ⟨y, by simp, mem_set_of_ne below yIn fun same' => differ (same.trans same'.symm)⟩
      · exact ⟨x, by simp, mem_set_of_ne below xIn same⟩
    obtain ⟨long, longIn, later, loses⟩ : ∃ long ∈ [u, v], long ∈ todo ∧ long ≠ todo.foldl longer done[m] := by
      by_cases same : u = todo.foldl longer done[m]
      · exact ⟨v, by simp, vIn, fun same' => differ' (same.trans same'.symm)⟩
      · exact ⟨u, by simp, uIn, same⟩
    have outside : long ∉ done.set m (todo.foldl longer done[m]) := fun member =>
      (mem_or_eq_of_mem_set member).elim (fun inside => apart long inside later) loses
    have bound := longest.longest long (mem_append_right _ later) outside short keeps
    have less := shorter short shortIn long longIn
    omega
  · intro free
    refine ⟨by simp, ?_, fun x member => ?_, fun x member outside y found => ?_⟩
    · have first : done.Nodup := (nodup_append.mp distinct).1
      rcases chosen with same | ⟨later, _⟩
      · rwa [same, set_getElem_self]
      · exact first.set fun inside => apart _ inside later
    · rcases mem_or_eq_of_mem_set member with inside | rfl
      · exact mem_append_left _ inside
      · rcases chosen with same | ⟨later, _⟩
        · rw [same]
          exact mem_append_left _ slot
        · exact mem_append_right _ later
    · rcases mem_append.mp member with inside | later
      · have replaced : x = done[m] := by
          by_contra other
          exact outside (mem_set_of_ne below inside other)
        rw [replaced]
        rcases mem_or_eq_of_mem_set found with kept | rfl
        · exact least y kept
        · rcases chosen with same | ⟨_, less⟩
          · rw [same]
          · exact less.le
      · rcases mem_or_eq_of_mem_set found with kept | rfl
        · rcases chosen with same | ⟨better, less⟩
          · exact (same ▸ atLeast x later).trans (least y kept)
          · by_contra shorter
            have other : done[m] ≠ y := by
              rintro rfl
              obtain ⟨i, within, same⟩ := mem_iff_getElem.mp found
              by_cases here : m = i
              · subst here
                rw [getElem_set_self] at same
                exact apart _ slot (same ▸ better)
              · rw [getElem_set_ne here] at same
                have first : done.Nodup := (nodup_append.mp distinct).1
                exact here ((first.getElem_inj_iff).mp same).symm
            have differ : x ≠ todo.foldl longer done[m] := by
              rintro rfl
              exact outside (mem_iff_getElem.mpr ⟨m, by simpa using below, getElem_set_self _⟩)
            refine free ⟨_, slot, y, kept, other, x, later, _, better, differ, fun short shortIn long longIn => ?_⟩
            have bound := least y kept
            have more := atLeast x later
            simp only [mem_cons, not_mem_nil, or_false] at shortIn longIn
            rcases shortIn with rfl | rfl <;> rcases longIn with rfl | rfl <;> omega
        · exact atLeast x later

end Chosen

/-- What is returned: the number of the runs, and the slots of as many. -/
def Returns (bitMap : RtlBitmap) (runArray : Nat → RtlBitmapRun) (capacity : Nat) (locateLongestRuns : Bool)
    (found : List RtlBitmapRun) : Prop :=
  ∃ fuel, (rtlFindClearRuns fuel bitMap runArray capacity locateLongestRuns).map
    (fun result => filledSlots result.2 result.1) = some found

/-- The longest runs are asked for, or the first ones. -/
def FindsRuns (bitMap : RtlBitmap) (runArray : Nat → RtlBitmapRun) (capacity : Nat) : Prop :=
  (∃ found, Returns bitMap runArray capacity true found ∧ LongestRuns (clearRuns bitMap) capacity found) ∧
    Returns bitMap runArray capacity false ((clearRuns bitMap).take capacity)

theorem recorded_start (runArray : Nat → RtlBitmapRun) :
    Recorded bitMap [] (clearRuns bitMap) ⟨runArray, 0, 0, 0⟩ :=
  ⟨⟨Nat.zero_le _, .inl rfl⟩, rfl, rfl, rfl, .inl ⟨rfl, rfl⟩⟩

theorem clearRuns_nodup : (clearRuns bitMap).Nodup :=
  maximalRuns_nodup.map fun x y same => by
    simp only [RtlBitmapRun.mk.injEq] at same
    exact Prod.ext same.1 same.2

theorem findClearRuns_more {longest : Bool} (ended : rtlFindClearRuns fuel bitMap runArray capacity longest = some result)
    (extra : Nat) : rtlFindClearRuns (fuel + extra) bitMap runArray capacity longest = some result := by
  rw [rtlFindClearRuns] at ended ⊢
  split at ended
  · next finished => rw [if_pos finished, ended]
  · next full =>
      obtain ⟨s, replaced, rfl⟩ := Option.map_eq_some_iff.mp ended
      rw [if_neg full, replaceRuns_more replaced]
      rfl

theorem Returns.unique {longest : Bool} (returned : Returns bitMap runArray capacity longest found)
    (returned' : Returns bitMap runArray capacity longest found') : found = found' := by
  obtain ⟨fuel, result⟩ := returned
  obtain ⟨fuel', result'⟩ := returned'
  obtain ⟨r, ended, rfl⟩ := Option.map_eq_some_iff.mp result
  obtain ⟨r', ended', rfl⟩ := Option.map_eq_some_iff.mp result'
  have both := findClearRuns_more ended fuel'
  rw [Nat.add_comm, findClearRuns_more ended' fuel] at both
  rw [Option.some.inj both]

theorem Recorded.returns (recorded : Recorded bitMap done todo (recordRuns bitMap capacity ⟨runArray, 0, 0, 0⟩))
    {longest : Bool} (finished : (recordRuns bitMap capacity ⟨runArray, 0, 0, 0⟩).run < capacity ∨ ¬ longest) :
    Returns bitMap runArray capacity longest done := by
  refine ⟨0, ?_⟩
  rw [rtlFindClearRuns, if_pos finished, Option.map_some, recorded.run, recorded.slots]

theorem Recorded.slot (recorded : Recorded bitMap done todo s) {i : Nat} (below : i < done.length) :
    done[i] = s.runArray i := by
  have slot := congrArg (·[i]?) recorded.slots
  simpa [filledSlots, below] using slot.symm

theorem Recorded.replacing (recorded : Recorded bitMap done todo s) :
    Replacing bitMap done todo s.smallestRun (s.runArray s.smallestRun) s := by
  refine ⟨recorded.boundary, recorded.left, recorded.run, rfl, rfl, recorded.slots.trans ?_⟩
  rcases recorded.smallest with ⟨rfl, _⟩ | ⟨below, _⟩
  · rfl
  · rw [← recorded.slot below, set_getElem_self]

theorem Recorded.returns_longest (few : bitMap.sizeOfBitMap + 31 < 0x100000000)
    (recorded : Recorded bitMap done todo (recordRuns bitMap done.length ⟨runArray, 0, 0, 0⟩)) :
    let s := recordRuns bitMap done.length ⟨runArray, 0, 0, 0⟩
    Returns bitMap runArray done.length true
      (done.set s.smallestRun (todo.foldl longer (s.runArray s.smallestRun))) := by
  obtain ⟨fuel, s', ended, run, slots⟩ := recorded.replacing.finish few
  have full : ¬ ((recordRuns bitMap done.length ⟨runArray, 0, 0, 0⟩).run < done.length ∨ ¬ true) := by
    simp [recorded.run]
  refine ⟨fuel, ?_⟩
  rw [rtlFindClearRuns, if_neg full, ended, Option.map_some, Option.map_some, run, slots]

theorem longest_returned (returned : Returns bitMap runArray capacity true chosen) :
    (∃ found, Returns bitMap runArray capacity true found ∧ LongestRuns runs capacity found) ↔
      LongestRuns runs capacity chosen :=
  ⟨fun ⟨_, returned', longest⟩ => returned'.unique returned ▸ longest, fun longest => ⟨chosen, returned, longest⟩⟩

/-- For all sizes but the 31 largest. -/
theorem clear_runs_iff (few : bitMap.sizeOfBitMap + 31 < 0x100000000) :
    FindsRuns bitMap runArray capacity ↔ ¬ Crowded (clearRuns bitMap) capacity := by
  have distinct : (clearRuns bitMap).Nodup := clearRuns_nodup
  obtain ⟨done, todo, whole, recorded, room⟩ := recordRuns_spec few capacity (recorded_start runArray)
  rw [nil_append] at whole
  rw [length_nil, Nat.zero_add] at room
  rw [← whole] at distinct
  rw [FindsRuns, ← whole]
  rcases room with rfl | ⟨room, rfl⟩
  · have first : Returns bitMap runArray done.length false ((done ++ todo).take done.length) := by
      rw [take_left]
      exact recorded.returns (.inr Bool.false_ne_true)
    refine (and_iff_left first).trans ((longest_returned (recorded.returns_longest few)).trans ?_)
    rcases recorded.smallest with ⟨rfl, _⟩ | ⟨below, least⟩
    · refine iff_of_true ⟨by simp, nodup_nil, by simp, by simp⟩ ?_
      rintro ⟨x, member, _⟩
      simp at member
    · rw [← recorded.slot below]
      refine longestRuns_chosen_iff below distinct fun y member => ?_
      obtain ⟨i, within, rfl⟩ := mem_iff_getElem.mp member
      rw [recorded.slot below, recorded.slot within]
      exact least i within
  · rw [append_nil] at distinct ⊢
    have finished : (recordRuns bitMap capacity ⟨runArray, 0, 0, 0⟩).run < capacity := recorded.run ▸ room
    have fits : done.take capacity = done := take_of_length_le room.le
    rw [fits]
    refine iff_of_true ⟨⟨done, recorded.returns (.inl finished), ?_⟩, recorded.returns (.inr Bool.false_ne_true)⟩ ?_
    · exact ⟨by omega, distinct, fun x member => member, fun x member outside => absurd member outside⟩
    · rintro ⟨_, _, _, _, _, u, member, _⟩
      rw [drop_of_length_le room.le] at member
      cases member

def spreadMap : RtlBitmap := ⟨9, fun _ => 0x4A, by decide⟩

theorem clear_runs_iff_spread : FindsRuns spreadMap (fun _ => ⟨0, 0⟩) 3 ↔ ¬ Crowded (clearRuns spreadMap) 3 :=
  clear_runs_iff (by decide)

/-- The run at 7 is longer than the one at 2 that is returned. -/
theorem longer_run_lost : clearRuns spreadMap = [⟨0, 1⟩, ⟨2, 1⟩, ⟨4, 2⟩, ⟨7, 2⟩] ∧
    Returns spreadMap (fun _ => ⟨0, 0⟩) 2 true [⟨4, 2⟩, ⟨2, 1⟩] ∧ ¬ FindsRuns spreadMap (fun _ => ⟨0, 0⟩) 2 := by
  have runs : clearRuns spreadMap = [⟨0, 1⟩, ⟨2, 1⟩, ⟨4, 2⟩, ⟨7, 2⟩] := by decide
  have returned : Returns spreadMap (fun _ => ⟨0, 0⟩) 2 true [⟨4, 2⟩, ⟨2, 1⟩] := ⟨20, by decide +kernel⟩
  refine ⟨runs, returned, fun finds => ?_⟩
  have longest := ((longest_returned returned).mp finds.1).longest ⟨7, 2⟩ (by rw [runs]; decide) (by decide) ⟨2, 1⟩
    (by decide)
  exact absurd longest (by decide)

end Claim
end VeaOS.Rtl
