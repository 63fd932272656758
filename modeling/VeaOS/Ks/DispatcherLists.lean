import VeaOS.Ks.Dispatcher

/-! What the lists of the dispatcher hold: the wait list of an object the wait
blocks that name it, the mutant list of a thread the mutants it owns. -/
namespace VeaOS.Ks
open Foundation Dispatcher List ListEntry
variable {Thread Object : Type}

def waitEntry (block : Thread × Fin 3) : ListEntry Thread Object := .waitListEntry block.1 block.2

theorem waitEntry_injective {b c : Thread × Fin 3}
    (same : (waitEntry b : ListEntry Thread Object) = waitEntry c) : b = c := by
  simp only [waitEntry, waitListEntry.injEq] at same
  exact Prod.ext same.1 same.2

structure Lines (s : Dispatcher Thread Object) (waiters : Object → List (Thread × Fin 3))
    (owned : Thread → List Object) : Prop where
  waitRing (o : Object) : s.links.Ring (.waitListHead o) ((waiters o).map waitEntry)
  mutantRing (t : Thread) : s.links.Ring (.mutantListHead t) ((owned t).map .mutantListEntry)
  blocked {o : Object} {t : Thread} {i : Fin 3} : (t, i) ∈ waiters o ↔ (s.thread t).waitBlock i = some o
  owns {t : Thread} {m : Object} : m ∈ owned t ↔ s.ownerThread m = some t

namespace Lines
variable {s s' : Dispatcher Thread Object} {waiters : Object → List (Thread × Fin 3)}
  {owned : Thread → List Object}

theorem congr (lines : Lines s waiters owned) (links : s'.links = s.links)
    (blocks : ∀ t, (s'.thread t).waitBlock = (s.thread t).waitBlock)
    (owners : s'.ownerThread = s.ownerThread) : Lines s' waiters owned where
  waitRing := links ▸ lines.waitRing
  mutantRing := links ▸ lines.mutantRing
  blocked := by
    intro o t i
    rw [blocks]
    exact lines.blocked
  owns := by
    intro t m
    rw [owners]
    exact lines.owns

theorem wait_apart (lines : Lines s waiters owned) (other : o ≠ o') :
    ∀ x ∈ waitListHead o :: (waiters o).map waitEntry,
      x ∉ waitListHead o' :: (waiters o').map waitEntry := by
  intro x member found
  rcases mem_cons.mp member with rfl | member
  · rcases mem_cons.mp found with same | found
    · exact other (waitListHead.inj same)
    · obtain ⟨b, -, same⟩ := mem_map.mp found
      cases same
  · obtain ⟨b, inside, rfl⟩ := mem_map.mp member
    rcases mem_cons.mp found with same | found
    · cases same
    · obtain ⟨c, also, same⟩ := mem_map.mp found
      cases waitEntry_injective same
      exact other (Option.some.inj ((lines.blocked.mp inside).symm.trans (lines.blocked.mp also)))

theorem mutant_apart (lines : Lines s waiters owned) (other : t ≠ u) :
    ∀ x ∈ mutantListHead t :: (owned t).map mutantListEntry,
      x ∉ mutantListHead u :: (owned u).map mutantListEntry := by
  intro x member found
  rcases mem_cons.mp member with rfl | member
  · rcases mem_cons.mp found with same | found
    · exact other (mutantListHead.inj same)
    · obtain ⟨m, -, same⟩ := mem_map.mp found
      cases same
  · obtain ⟨m, inside, rfl⟩ := mem_map.mp member
    rcases mem_cons.mp found with same | found
    · cases same
    · obtain ⟨n, also, same⟩ := mem_map.mp found
      cases mutantListEntry.inj same
      exact other (Option.some.inj ((lines.owns.mp inside).symm.trans (lines.owns.mp also)))

theorem wait_mutant_apart (waiters : Object → List (Thread × Fin 3)) (owned : Thread → List Object)
    (o : Object) (t : Thread) : ∀ x ∈ waitListHead o :: (waiters o).map waitEntry,
      x ∉ mutantListHead t :: (owned t).map mutantListEntry := by
  intro x member found
  rcases mem_cons.mp member with rfl | member
  · rcases mem_cons.mp found with same | found
    · cases same
    · obtain ⟨m, -, same⟩ := mem_map.mp found
      cases same
  · obtain ⟨b, -, rfl⟩ := mem_map.mp member
    rcases mem_cons.mp found with same | found
    · cases same
    · obtain ⟨m, -, same⟩ := mem_map.mp found
      cases same

theorem waiters_nodup (lines : Lines s waiters owned) (o : Object) : (waiters o).Nodup :=
  .of_map _ (nodup_cons.mp (lines.waitRing o).distinct).2

theorem owned_nodup (lines : Lines s waiters owned) (t : Thread) : (owned t).Nodup :=
  .of_map _ (nodup_cons.mp (lines.mutantRing t).distinct).2

section Steps
variable [DecidableEq Thread] [DecidableEq Object]

variable (lines : Lines s waiters owned)
include lines

theorem removeWaitBlock (t : Thread) (i : Fin 3) :
    Lines (removeWaitBlock s t i) (fun o => (waiters o).erase (t, i)) owned := by
  unfold Ks.removeWaitBlock
  cases block : (s.thread t).waitBlock i with
  | none =>
    have absent : ∀ o, (t, i) ∉ waiters o := fun o member => by
      rw [lines.blocked.mp member] at block
      cases block
    simpa only [erase_of_not_mem (absent _)] using lines
  | some object =>
    have member := lines.blocked.mpr block
    have absent : ∀ o, o ≠ object → (t, i) ∉ waiters o := fun o other inside =>
      other (Option.some.inj ((lines.blocked.mp inside).symm.trans block))
    refine ⟨fun o => ?_, fun u => ?_, fun {o u j} => ?_, lines.owns⟩
    · by_cases same : o = object
      · subst same
        obtain ⟨front, back, split, before⟩ := eq_append_cons_of_mem member
        have ring := lines.waitRing o
        rw [split, map_append, map_cons] at ring
        rw [split, erase_append_right _ before, erase_cons_head, map_append]
        exact ring.remove
      · rw [erase_of_not_mem (absent o same)]
        exact (lines.waitRing object).remove_apart (mem_map_of_mem member) (lines.waitRing o)
          (lines.wait_apart same)
    · exact (lines.waitRing object).remove_apart (mem_map_of_mem member) (lines.mutantRing u)
        fun x inside found => wait_mutant_apart waiters owned object u x found inside
    · rw [(lines.waiters_nodup o).mem_erase_iff, lines.blocked]
      by_cases same : u = t
      · subst same
        by_cases index : j = i <;> simp [setThread, KThread.setBlock, index]
      · simp [setThread, same]

theorem removeWaitBlock_flink (t : Thread) (i : Fin 3) (unused : (s.thread t).waitBlock j = none) :
    (Ks.removeWaitBlock s t i).links.flink (.waitListEntry t j) = s.links.flink (.waitListEntry t j) := by
  unfold Ks.removeWaitBlock
  cases block : (s.thread t).waitBlock i with
  | none => rfl
  | some object =>
    refine ((lines.waitRing object).remove_outside (mem_map_of_mem (lines.blocked.mpr block)) ?_).1
    intro member
    rcases mem_cons.mp member with same | member
    · cases same
    · obtain ⟨b, inside, same⟩ := mem_map.mp member
      have same : b = (t, j) := waitEntry_injective same
      subst same
      rw [lines.blocked.mp inside] at unused
      cases unused

theorem foldl_removeWaitBlock_flink {indices : List (Fin 3)} (t : Thread)
    (removed : (s.thread t).waitBlock j = none ∧ s.links.flink (.waitListEntry t j) = .waitListEntry t j ∨
      (s.thread t).waitBlock j ≠ none ∧ j ∈ indices) :
    (indices.foldl (fun s i => Ks.removeWaitBlock s t i) s).links.flink (.waitListEntry t j) =
      .waitListEntry t j := by
  induction indices generalizing s waiters with
  | nil => exact (removed.resolve_right (by simp)).2
  | cons i rest ih =>
    refine ih (lines.removeWaitBlock t i) ?_
    have blocks : ((Ks.removeWaitBlock s t i).thread t).waitBlock j =
        if j = i then none else (s.thread t).waitBlock j := by
      unfold Ks.removeWaitBlock
      split
      · rename_i unused
        split
        · rename_i same
          exact same ▸ unused
        · rfl
      · simp [setThread, KThread.setBlock, Function.update_apply]
    rcases removed with ⟨unused, loose⟩ | ⟨used, listed⟩
    · refine .inl ⟨by rw [blocks, unused, ite_self], ?_⟩
      rw [lines.removeWaitBlock_flink t i unused, loose]
    · by_cases same : j = i
      · subst same
        obtain ⟨object, block⟩ := Option.ne_none_iff_exists'.mp used
        refine .inl ⟨by rw [blocks, if_pos rfl], ?_⟩
        simp only [Ks.removeWaitBlock, block]
        exact RingLinks.remove_self _ _
      · refine .inr ⟨by rwa [blocks, if_neg same], ?_⟩
        exact (mem_cons.mp listed).resolve_left same

theorem removeThreadWaitBlocks (t : Thread) :
    Lines (ksiRemoveThreadWaitBlocks s t) (fun o => (waiters o).filter fun b => b.1 ≠ t) owned := by
  have removed := ((lines.removeWaitBlock t 0).removeWaitBlock t 1).removeWaitBlock t 2
  have same : ∀ o, (((waiters o).erase (t, 0)).erase (t, 1)).erase (t, 2) =
      (waiters o).filter fun b => b.1 ≠ t := by
    intro o
    have distinct := lines.waiters_nodup o
    rw [((distinct.erase _).erase _).erase_eq_filter, (distinct.erase _).erase_eq_filter,
      distinct.erase_eq_filter, filter_filter, filter_filter]
    refine filter_congr fun b _ => ?_
    obtain ⟨u, j⟩ := b
    by_cases thread : u = t
    · subst thread
      rcases (by omega : j = 0 ∨ j = 1 ∨ j = 2) with rfl | rfl | rfl <;> simp
    · simp [thread]
  simp only [same] at removed
  exact removed

theorem assignMutantOwner (free : s.ownerThread m = none) (t : Thread)
    (mutant : s.isMutant m) : Lines (ksiAssignMutantOwner s t m) waiters
      (Function.update owned t (owned t ++ [m])) := by
  rw [ksiAssignMutantOwner, if_pos mutant]
  have absent : ∀ u, m ∉ owned u := fun u member => by
    rw [lines.owns.mp member] at free
    cases free
  have apart : ∀ u, mutantListEntry m ∉
      mutantListHead u :: (owned u).map mutantListEntry := by
    intro u member
    rcases mem_cons.mp member with same | member
    · cases same
    · obtain ⟨n, inside, same⟩ := mem_map.mp member
      exact absent u (mutantListEntry.inj same ▸ inside)
  refine ⟨fun o => ?_, fun u => ?_, lines.blocked, fun {u n} => ?_⟩
  · refine (lines.mutantRing t).insertTail_apart (lines.waitRing o) fun x inside =>
      ⟨wait_mutant_apart waiters owned o t x inside, fun same => ?_⟩
    subst same
    rcases mem_cons.mp inside with same | inside
    · cases same
    · obtain ⟨b, -, same⟩ := mem_map.mp inside
      cases same
  · by_cases same : u = t
    · subst same
      rw [Function.update_self, map_append]
      exact (lines.mutantRing u).insertTail (apart u)
    · rw [Function.update_of_ne same]
      refine (lines.mutantRing t).insertTail_apart (lines.mutantRing u) fun x inside =>
        ⟨lines.mutant_apart same x inside, ?_⟩
      rintro rfl
      exact apart u inside
  · have owns := lines.owns (t := u) (m := n)
    by_cases thread : u = t
    · subst thread
      by_cases same : n = m
      · simp [same]
      · simpa [same, insertTailList] using owns
    · by_cases same : n = m
      · subst same
        simp [thread, Ne.symm thread, absent u]
      · simpa [thread, same, insertTailList] using owns

end Steps
end Lines
end VeaOS.Ks
