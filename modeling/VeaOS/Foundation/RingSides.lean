import VeaOS.Foundation.RingList

/-! Lists of two sides over the same links. What is done to the lists of one side
leaves the links of the other side alone, where no node links across. -/
namespace VeaOS.Foundation.RingLinks
open List RingLinks
variable {ι : Type*} {L : RingLinks ι} {p : ι → Prop} {side : ι → Bool} {x v head entry : ι} {xs : List ι}

/-- The nodes that are meant link to such nodes only. -/
def Closed (L : RingLinks ι) (p : ι → Prop) : Prop := ∀ x, p x → p (L.flink x) ∧ p (L.blink x)

/-- The links of one side; each node of the other side is linked to itself. -/
def restrict (L : RingLinks ι) (side : ι → Bool) : RingLinks ι where
  flink x := if side x then L.flink x else x
  blink x := if side x then L.blink x else x

theorem restrict_flink (here : side x = true) : (L.restrict side).flink x = L.flink x := if_pos here

theorem restrict_blink (here : side x = true) : (L.restrict side).blink x = L.blink x := if_pos here

theorem Ring.of_restrict (ring : (L.restrict side).Ring head xs) (here : ∀ x ∈ head :: xs, side x = true) :
    L.Ring head xs :=
  ring.congr (fun x member => (restrict_flink (here x member)).symm)
    fun x member => (restrict_blink (here x member)).symm

theorem Ring.neighbours (ring : L.Ring head xs) (inside : x ∈ head :: xs) :
    L.flink x ∈ head :: xs ∧ L.blink x ∈ head :: xs := by
  rcases mem_cons.mp inside with rfl | inside
  · have next := ring.linked.flink_mem
    exact ⟨by simpa [or_comm] using next, ring.linked.blink_mem⟩
  · obtain ⟨front, back, rfl⟩ := append_of_mem inside
    have next := ring.rotate.linked.flink_mem
    have last := ring.rotate.linked.blink_mem
    constructor
    · simp only [mem_append, mem_cons, not_mem_nil, or_false] at next ⊢
      tauto
    · simp only [mem_append, mem_cons] at last ⊢
      tauto

theorem Segment.unique : ∀ {a b : ι} {xs ys : List ι}, Segment L a xs b → Segment L a ys b → b ∉ xs → b ∉ ys →
    xs = ys
  | _, _, [], [], _, _, _, _ => rfl
  | _, _, [], y :: ys, first, second, _, outside =>
    absurd (mem_cons.mpr (.inl (first.1.symm.trans second.1.1))) outside
  | _, _, x :: xs, [], first, second, outside, _ =>
    absurd (mem_cons.mpr (.inl (second.1.symm.trans first.1.1))) outside
  | _, _, x :: xs, y :: ys, first, second, off, outside => by
      obtain rfl : x = y := first.1.1.symm.trans second.1.1
      rw [first.2.unique second.2 (fun inside => off (mem_cons_of_mem _ inside))
        fun inside => outside (mem_cons_of_mem _ inside)]

theorem Ring.unique {ys : List ι} (ring : L.Ring head xs) (other : L.Ring head ys) : xs = ys :=
  ring.linked.unique other.linked (nodup_cons.mp ring.distinct).1 (nodup_cons.mp other.distinct).1

variable [DecidableEq ι]

namespace Closed

theorem setFlink (closed : L.Closed p) (kept : p x → p v) : (L.setFlink x v).Closed p := by
  intro y inside
  refine ⟨?_, (closed y inside).2⟩
  by_cases same : y = x
  · subst same
    simpa [RingLinks.setFlink] using kept inside
  · simpa [RingLinks.setFlink, same] using (closed y inside).1

theorem setBlink (closed : L.Closed p) (kept : p x → p v) : (L.setBlink x v).Closed p := by
  intro y inside
  refine ⟨(closed y inside).1, ?_⟩
  by_cases same : y = x
  · subst same
    simpa [RingLinks.setBlink] using kept inside
  · simpa [RingLinks.setBlink, same] using (closed y inside).2

theorem initializeHead (closed : L.Closed p) (x : ι) : (L.initializeListHead x).Closed p :=
  (closed.setFlink id).setBlink id

theorem adjoin (closed : L.Closed p) (x : ι) : (L.initializeListHead x).Closed fun y => p y ∨ y = x := by
  intro y inside
  by_cases same : y = x
  · subst same
    simp [initializeListHead, RingLinks.setFlink, RingLinks.setBlink]
  · obtain ⟨next, last⟩ := closed y (inside.resolve_right same)
    simp [initializeListHead, RingLinks.setFlink, RingLinks.setBlink, same, next, last]

theorem insertTail (closed : L.Closed p) (same : p head ↔ p entry) (last : p (L.blink head) ↔ p head) :
    (L.insertTailList head entry).Closed p := by
  refine (((closed.setFlink same.mpr).setBlink ?_).setFlink ?_).setBlink same.mp
  · exact fun inside => last.mpr (same.mpr inside)
  · exact fun inside => same.mp (last.mp inside)

theorem removeEntry (closed : L.Closed p) (ends : p (L.flink entry) ↔ p (L.blink entry)) :
    (L.removeEntryList entry).Closed p :=
  ((closed.setFlink ends.mpr).setBlink ends.mp).initializeHead entry

end Closed

section Restriction

theorem restrict_setFlink (here : side x = true) :
    (L.setFlink x v).restrict side = (L.restrict side).setFlink x v := by
  refine congrArg (mk · _) (funext fun y => ?_)
  by_cases same : y = x
  · subst same
    simp [setFlink, restrict, here]
  · simp [setFlink, restrict, same]

theorem restrict_setFlink_off (off : side x = false) : (L.setFlink x v).restrict side = L.restrict side := by
  refine congrArg (mk · _) (funext fun y => ?_)
  by_cases same : y = x
  · subst same
    simp [off]
  · simp [setFlink, same]

theorem restrict_setBlink (here : side x = true) :
    (L.setBlink x v).restrict side = (L.restrict side).setBlink x v := by
  refine congrArg (mk _ ·) (funext fun y => ?_)
  by_cases same : y = x
  · subst same
    simp [setBlink, restrict, here]
  · simp [setBlink, restrict, same]

theorem restrict_setBlink_off (off : side x = false) : (L.setBlink x v).restrict side = L.restrict side := by
  refine congrArg (mk _ ·) (funext fun y => ?_)
  by_cases same : y = x
  · subst same
    simp [off]
  · simp [setBlink, same]

theorem restrict_initializeHead (here : side x = true) :
    (L.initializeListHead x).restrict side = (L.restrict side).initializeListHead x := by
  rw [initializeListHead, restrict_setBlink here, restrict_setFlink here, initializeListHead]

theorem restrict_initializeHead_off (off : side x = false) :
    (L.initializeListHead x).restrict side = L.restrict side := by
  rw [initializeListHead, restrict_setBlink_off off, restrict_setFlink_off off]

theorem restrict_insertTail (atHead : side head = true) (atEntry : side entry = true)
    (last : side (L.blink head) = true) :
    (L.insertTailList head entry).restrict side = (L.restrict side).insertTailList head entry := by
  simp only [insertTailList, restrict_setBlink atHead, restrict_setFlink last, restrict_setBlink atEntry,
    restrict_setFlink atEntry, restrict_blink atHead]

theorem restrict_insertTail_off (atHead : side head = false) (atEntry : side entry = false)
    (last : side (L.blink head) = false) : (L.insertTailList head entry).restrict side = L.restrict side := by
  simp only [insertTailList, restrict_setBlink_off atHead, restrict_setFlink_off last,
    restrict_setBlink_off atEntry, restrict_setFlink_off atEntry]

theorem restrict_removeEntry (atEntry : side entry = true) (next : side (L.flink entry) = true)
    (last : side (L.blink entry) = true) :
    (L.removeEntryList entry).restrict side = (L.restrict side).removeEntryList entry := by
  simp only [removeEntryList, restrict_initializeHead atEntry, restrict_setBlink next, restrict_setFlink last,
    restrict_flink atEntry, restrict_blink atEntry]

theorem restrict_removeEntry_off (atEntry : side entry = false) (next : side (L.flink entry) = false)
    (last : side (L.blink entry) = false) : (L.removeEntryList entry).restrict side = L.restrict side := by
  simp only [removeEntryList, restrict_initializeHead_off atEntry, restrict_setBlink_off next,
    restrict_setFlink_off last]

end Restriction
end VeaOS.Foundation.RingLinks
