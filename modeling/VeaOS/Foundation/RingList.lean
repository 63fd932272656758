import Mathlib.Data.List.Nodup

/-! Circular doubly linked lists through links that the nodes carry. A list is
a ring through its head, in which both links of a node name its neighbours. -/
namespace VeaOS.Foundation
open Function List
variable {ι : Type*}

structure RingLinks (ι : Type*) where
  flink : ι → ι
  blink : ι → ι

namespace RingLinks

section Memory
variable [DecidableEq ι]

def setFlink (L : RingLinks ι) (x v : ι) : RingLinks ι := { L with flink := Function.update L.flink x v }

def setBlink (L : RingLinks ι) (x v : ι) : RingLinks ι := { L with blink := Function.update L.blink x v }

def initializeListHead (L : RingLinks ι) (head : ι) : RingLinks ι :=
  (L.setFlink head head).setBlink head head

def insertTailList (L : RingLinks ι) (head entry : ι) : RingLinks ι :=
  let oldBlink := L.blink head
  let L := (L.setFlink entry head).setBlink entry oldBlink
  (L.setFlink oldBlink entry).setBlink head entry

def insertHeadList (L : RingLinks ι) (head entry : ι) : RingLinks ι :=
  let oldFlink := L.flink head
  let L := (L.setFlink entry oldFlink).setBlink entry head
  (L.setBlink oldFlink entry).setFlink head entry

/-- The neighbours of the entry are linked to each other, and the entry to itself. -/
def removeEntryList (L : RingLinks ι) (entry : ι) : RingLinks ι :=
  let flink := L.flink entry
  let blink := L.blink entry
  ((L.setFlink blink flink).setBlink flink blink).initializeListHead entry

def isListEmpty (L : RingLinks ι) (head : ι) : Bool := L.flink head = head

end Memory

/-- The nodes from `a` to `b`, with `xs` between them, are linked both ways. -/
def Segment (L : RingLinks ι) (a : ι) : List ι → ι → Prop
  | [], b => L.flink a = b ∧ L.blink b = a
  | x :: xs, b => (L.flink a = x ∧ L.blink x = a) ∧ Segment L x xs b

structure Ring (L : RingLinks ι) (head : ι) (xs : List ι) : Prop where
  distinct : (head :: xs).Nodup
  linked : Segment L head xs head

variable {L L' : RingLinks ι} {xs ys : List ι} {head h : ι}

theorem segment_append : ∀ {a x b : ι} {xs ys : List ι},
    Segment L a (xs ++ x :: ys) b ↔ Segment L a xs x ∧ Segment L x ys b
  | _, _, _, [], _ => Iff.rfl
  | _, _, _, _ :: _, _ => (and_congr_right fun _ => segment_append).trans and_assoc.symm

theorem Segment.congr : ∀ {a b : ι} {xs : List ι}, Segment L a xs b →
    (∀ x ∈ a :: xs, L'.flink x = L.flink x) → (∀ x ∈ xs ++ [b], L'.blink x = L.blink x) →
    Segment L' a xs b
  | _, b, [], linked, flink, blink =>
    ⟨(flink _ mem_cons_self).trans linked.1, (blink b (mem_singleton_self b)).trans linked.2⟩
  | _, _, x :: _, linked, flink, blink =>
    ⟨⟨(flink _ mem_cons_self).trans linked.1.1, (blink x mem_cons_self).trans linked.1.2⟩,
      linked.2.congr (fun y member => flink y (mem_cons_of_mem _ member))
        fun y member => blink y (mem_cons_of_mem _ member)⟩

theorem Ring.congr (ring : Ring L head xs) (flink : ∀ x ∈ head :: xs, L'.flink x = L.flink x)
    (blink : ∀ x ∈ head :: xs, L'.blink x = L.blink x) : Ring L' head xs :=
  ⟨ring.distinct, ring.linked.congr flink fun x member =>
    blink x (by simpa [or_comm] using member)⟩

theorem Segment.blink_mem : ∀ {a b : ι} {xs : List ι}, Segment L a xs b → L.blink b ∈ a :: xs
  | _, _, [], linked => by simp [linked.2]
  | _, _, _ :: _, linked => mem_cons_of_mem _ linked.2.blink_mem

theorem Segment.flink_mem : ∀ {a b : ι} {xs : List ι}, Segment L a xs b → L.flink a ∈ xs ++ [b]
  | _, _, [], linked => by simp [linked.1]
  | _, _, _ :: _, linked => by simp [linked.1.1]

theorem Ring.flink_eq (ring : Ring L head (xs ++ x :: ys)) : L.flink x = (ys ++ [head]).head (by simp) := by
  have behind := (segment_append.mp ring.linked).2
  cases ys with
  | nil => exact behind.1
  | cons y ys => exact behind.1.1

theorem Ring.flink_head (ring : Ring L head xs) : L.flink head = (xs ++ [head]).head (by simp) := by
  have linked := ring.linked
  cases xs with
  | nil => exact linked.1
  | cons y ys => exact linked.1.1

theorem Ring.blink_flink (ring : Ring L head xs) : L.blink (L.flink head) = head := by
  have linked := ring.linked
  cases xs with
  | nil => rw [linked.1, linked.2]
  | cons y ys => rw [linked.1.1, linked.1.2]

theorem Segment.blink_last : ∀ {a b : ι} {xs : List ι}, Segment L a xs b →
    L.blink b = (a :: xs).getLast (by simp)
  | _, _, [], linked => linked.2
  | _, _, _ :: _, linked => linked.2.blink_last

theorem Segment.flink_last : ∀ {a b : ι} {xs : List ι}, Segment L a xs b →
    L.flink ((a :: xs).getLast (by simp)) = b
  | _, _, [], linked => linked.1
  | _, _, _ :: _, linked => linked.2.flink_last

theorem Ring.rotate (ring : Ring L head (xs ++ x :: ys)) : Ring L x (ys ++ head :: xs) := by
  obtain ⟨before, behind⟩ := segment_append.mp ring.linked
  refine ⟨?_, segment_append.mpr ⟨behind, before⟩⟩
  have same : (x :: (ys ++ head :: xs)).Perm (head :: (xs ++ x :: ys)) := by
    have swap : (x :: ys ++ head :: xs).Perm (head :: xs ++ x :: ys) := perm_append_comm
    simpa using swap
  exact same.nodup_iff.mpr ring.distinct

theorem Ring.flink_blink (ring : Ring L head xs) : L.flink (L.blink head) = head := by
  rw [ring.linked.blink_last]
  exact ring.linked.flink_last

section Updates
variable [DecidableEq ι]

theorem Ring.isListEmpty (ring : Ring L head xs) : L.isListEmpty head = xs.isEmpty := by
  have first := ring.flink_head
  have outside := (nodup_cons.mp ring.distinct).1
  cases xs with
  | nil => simpa [RingLinks.isListEmpty] using first
  | cons y ys =>
    have apart : y ≠ head := fun same => outside (by simp [same])
    simpa [RingLinks.isListEmpty, first] using apart

theorem ring_initialize (L : RingLinks ι) (head : ι) : Ring (L.initializeListHead head) head [] :=
  ⟨nodup_singleton head, by
    simp [Segment, initializeListHead, setFlink, setBlink]⟩

theorem Ring.initialize_apart (aside : Ring L h ys) (outside : head ∉ h :: ys) :
    Ring (L.initializeListHead head) h ys := by
  have other : ∀ x ∈ h :: ys, x ≠ head := by
    rintro x member rfl
    exact outside member
  refine aside.congr (fun x member => ?_) fun x member => ?_
  all_goals simp [initializeListHead, setFlink, setBlink, other x member]

theorem Ring.insertTail (ring : Ring L head xs) (absent : entry ∉ head :: xs) :
    Ring (L.insertTailList head entry) head (xs ++ [entry]) := by
  obtain ⟨notHead, notIn⟩ := not_or.mp (fun h => absent (mem_cons.mpr h))
  obtain ⟨outside, distinct⟩ := nodup_cons.mp ring.distinct
  refine ⟨?_, ?_⟩
  · rw [← cons_append]
    exact nodup_append.mpr ⟨ring.distinct, nodup_singleton _, fun x member y isEntry => by
      rintro rfl
      exact absent (mem_singleton.mp isEntry ▸ member)⟩
  · rcases eq_nil_or_concat xs with rfl | ⟨front, last, rfl⟩
    · have back : L.blink head = head := ring.linked.2
      simp [Segment, insertTailList, setFlink, setBlink, back, notHead]
    · rw [concat_eq_append] at *
      obtain ⟨before, -, back⟩ := segment_append.mp ring.linked
      obtain ⟨-, -, apart⟩ := nodup_append.mp distinct
      have notLast : last ≠ head := fun same => outside (by simp [same])
      have notEntry : last ≠ entry := fun same => notIn (by simp [same])
      rw [append_assoc]
      refine segment_append.mpr ⟨before.congr (fun x member => ?_) (fun x member => ?_), ?_⟩
      · have otherLast : x ≠ last := by
          rcases mem_cons.mp member with rfl | member
          · exact notLast.symm
          · exact apart x member last (mem_singleton_self _)
        have otherEntry : x ≠ entry := by
          rintro rfl
          exact absent (by grind)
        simp [insertTailList, setFlink, setBlink, back, otherLast, otherEntry]
      · have otherHead : x ≠ head := by
          rintro rfl
          exact outside member
        have otherEntry : x ≠ entry := by
          rintro rfl
          exact notIn member
        simp [insertTailList, setFlink, setBlink, otherHead, otherEntry]
      · simp [Segment, insertTailList, setFlink, setBlink, back, notHead, notEntry.symm]

theorem Ring.insertTail_flink (ring : Ring L head xs) (outside : x ∉ head :: xs) (other : x ≠ entry) :
    (L.insertTailList head entry).flink x = L.flink x := by
  have notLast : x ≠ L.blink head := by
    rintro rfl
    exact outside ring.linked.blink_mem
  simp [insertTailList, setFlink, setBlink, other, notLast]

theorem insertTail_blink (notHead : x ≠ head) (other : x ≠ entry) :
    (L.insertTailList head entry).blink x = L.blink x := by
  simp [insertTailList, setFlink, setBlink, other, notHead]

theorem Ring.insertTail_apart (ring : Ring L head xs) (aside : Ring L h ys)
    (apart : ∀ x ∈ h :: ys, x ∉ head :: xs ∧ x ≠ entry) : Ring (L.insertTailList head entry) h ys :=
  aside.congr (fun x member => ring.insertTail_flink (apart x member).1 (apart x member).2)
    fun x member => insertTail_blink (fun same => (apart x member).1 (by simp [same])) (apart x member).2

theorem insertHead_eq_insertTail (back : L.blink (L.flink x) = x) :
    L.insertHeadList x entry = L.insertTailList (L.flink x) entry := by
  simp [insertHeadList, insertTailList, setFlink, setBlink, back]

theorem Ring.insertHead_after (ring : Ring L head (xs ++ ys)) (absent : entry ∉ head :: (xs ++ ys)) :
    Ring (L.insertHeadList ((head :: xs).getLast (by simp)) entry) head (xs ++ entry :: ys) := by
  cases ys with
  | nil =>
    rw [append_nil] at ring absent
    have next := ring.linked.flink_last
    have back : L.blink (L.flink ((head :: xs).getLast (by simp))) = (head :: xs).getLast (by simp) := by
      rw [next, ring.linked.blink_last]
    rw [insertHead_eq_insertTail back, next]
    exact ring.insertTail absent
  | cons y ys =>
    obtain ⟨before, -⟩ := segment_append.mp ring.linked
    have next := before.flink_last
    have back : L.blink (L.flink ((head :: xs).getLast (by simp))) = (head :: xs).getLast (by simp) := by
      rw [next, before.blink_last]
    rw [insertHead_eq_insertTail back, next]
    have outside : entry ∉ y :: (ys ++ head :: xs) := by
      simpa [or_comm, or_left_comm, or_assoc] using absent
    have joined := ring.rotate.insertTail outside
    rw [append_assoc, cons_append] at joined
    simpa using joined.rotate

theorem Ring.insertHead_apart (ring : Ring L head xs) (member : x ∈ head :: xs) (aside : Ring L h ys)
    (apart : ∀ y ∈ h :: ys, y ∉ head :: xs ∧ y ≠ entry) : Ring (L.insertHeadList x entry) h ys := by
  have next : L.flink x ∈ head :: xs := by
    rcases mem_cons.mp member with rfl | inside
    · have found := ring.linked.flink_mem
      grind
    · obtain ⟨front, back, rfl⟩ := append_of_mem inside
      have found := (segment_append.mp ring.linked).2.flink_mem
      grind
  refine aside.congr (fun y found => ?_) fun y found => ?_
  all_goals
    obtain ⟨outside, other⟩ := apart y found
    have notAt : y ≠ x := fun same => outside (same ▸ member)
    have notNext : y ≠ L.flink x := fun same => outside (same ▸ next)
    simp [insertHeadList, setFlink, setBlink, other, notAt, notNext]

theorem Ring.remove (ring : Ring L head (xs ++ entry :: ys)) :
    Ring (L.removeEntryList entry) head (xs ++ ys) := by
  obtain ⟨before, behind⟩ := segment_append.mp ring.linked
  have distinct := ring.distinct
  refine ⟨by grind, ?_⟩
  rcases eq_nil_or_concat xs with rfl | ⟨front, last, rfl⟩
  · obtain ⟨-, back⟩ := before
    cases ys with
    | nil =>
      have next := behind.1
      have notHead : head ≠ entry := by grind
      simp [Segment, removeEntryList, initializeListHead, setFlink, setBlink, back, next, notHead]
    | cons y rest =>
      obtain ⟨⟨next, -⟩, behind⟩ := behind
      refine ⟨?_, behind.congr (fun x member => ?_) fun x member => ?_⟩
      · simp only [removeEntryList, initializeListHead, setFlink, setBlink, back, next]
        grind
      · simp only [removeEntryList, initializeListHead, setFlink, setBlink, back, next]
        grind
      · simp only [removeEntryList, initializeListHead, setFlink, setBlink, back, next]
        grind
  · rw [concat_eq_append] at *
    obtain ⟨before, -, back⟩ := segment_append.mp before
    rw [append_assoc]
    cases ys with
    | nil =>
      have next := behind.1
      refine segment_append.mpr ⟨before.congr (fun x member => ?_) (fun x member => ?_), ?_⟩
      all_goals simp only [Segment, append_eq, nil_append, removeEntryList, initializeListHead, setFlink,
        setBlink, back, next]
      all_goals grind
    | cons y rest =>
      obtain ⟨⟨next, -⟩, behind⟩ := behind
      refine segment_append.mpr ⟨before.congr (fun x member => ?_) (fun x member => ?_), ?_,
        behind.congr (fun x member => ?_) fun x member => ?_⟩
      all_goals simp only [removeEntryList, initializeListHead, setFlink, setBlink, back, next]
      all_goals grind

theorem Ring.remove_outside (ring : Ring L head xs) (member : entry ∈ xs) (outside : x ∉ head :: xs) :
    (L.removeEntryList entry).flink x = L.flink x ∧ (L.removeEntryList entry).blink x = L.blink x := by
  obtain ⟨front, back, rfl⟩ := append_of_mem member
  obtain ⟨before, behind⟩ := segment_append.mp ring.linked
  have last := before.blink_mem
  have next := behind.flink_mem
  have other : x ≠ entry := by
    rintro rfl
    exact outside (by simp)
  have notLast : x ≠ L.blink entry := by
    rintro rfl
    exact outside (by grind)
  have notNext : x ≠ L.flink entry := by
    rintro rfl
    exact outside (by grind)
  simp [removeEntryList, initializeListHead, setFlink, setBlink, other, notLast, notNext]

theorem remove_self (L : RingLinks ι) (entry : ι) : (L.removeEntryList entry).flink entry = entry := by
  simp [removeEntryList, initializeListHead, setFlink, setBlink]

theorem Ring.remove_apart (ring : Ring L head xs) (member : entry ∈ xs) (aside : Ring L h ys)
    (apart : ∀ x ∈ h :: ys, x ∉ head :: xs) : Ring (L.removeEntryList entry) h ys :=
  aside.congr (fun x found => (ring.remove_outside member (apart x found)).1)
    fun x found => (ring.remove_outside member (apart x found)).2

/-- The neighbours of the entry are linked to each other, and its own links stay. -/
def unlinkEntry (L : RingLinks ι) (entry : ι) : RingLinks ι :=
  (L.setBlink (L.flink entry) (L.blink entry)).setFlink (L.blink entry) (L.flink entry)

theorem unlinkEntry_eq (other : x ≠ entry) : (L.unlinkEntry entry).flink x = (L.removeEntryList entry).flink x ∧
    (L.unlinkEntry entry).blink x = (L.removeEntryList entry).blink x := by
  simp only [unlinkEntry, removeEntryList, initializeListHead, setFlink, setBlink]
  exact ⟨(update_of_ne other _ _).symm, (update_of_ne other _ _).symm⟩

theorem Ring.unlink (ring : Ring L head (xs ++ entry :: ys)) : Ring (L.unlinkEntry entry) head (xs ++ ys) := by
  have away : ∀ x ∈ head :: (xs ++ ys), x ≠ entry := fun x member same => by
    have distinct := ring.distinct
    grind
  exact ring.remove.congr (fun x member => (unlinkEntry_eq (away x member)).1)
    fun x member => (unlinkEntry_eq (away x member)).2

theorem Ring.unlink_apart (ring : Ring L head xs) (member : entry ∈ xs) (aside : Ring L h ys)
    (apart : ∀ x ∈ h :: ys, x ∉ head :: xs) : Ring (L.unlinkEntry entry) h ys := by
  have away : ∀ x ∈ h :: ys, x ≠ entry := fun x found same =>
    apart x found (same ▸ mem_cons_of_mem head member)
  exact (ring.remove_apart member aside apart).congr (fun x found => (unlinkEntry_eq (away x found)).1)
    fun x found => (unlinkEntry_eq (away x found)).2

end Updates

/-- Lists with heads of their own, which share no node. -/
structure Family (L : RingLinks ι) (heads : κ → ι) (members : κ → List ι) : Prop where
  ring : ∀ i, Ring L (heads i) (members i)
  apart : ∀ {i j x}, x ∈ heads i :: members i → x ∈ heads j :: members j → i = j

namespace Family
variable [DecidableEq ι] [DecidableEq κ] {heads : κ → ι} {members : κ → List ι}

theorem unlink (family : Family L heads members) (split : members i = xs ++ entry :: ys) :
    Family (L.unlinkEntry entry) heads (update members i (xs ++ ys)) := by
  have ring := family.ring i
  have member : entry ∈ members i := by simp [split]
  have fewer : ∀ {j x}, x ∈ heads j :: update members i (xs ++ ys) j → x ∈ heads j :: members j := by
    intro j x found
    by_cases same : j = i
    · subst same
      rw [update_self] at found
      rw [split]
      grind
    · rwa [update_of_ne same] at found
  refine ⟨fun j => ?_, fun left right => family.apart (fewer left) (fewer right)⟩
  by_cases same : j = i
  · subst same
    rw [update_self]
    exact (split ▸ ring).unlink
  · rw [update_of_ne same]
    exact ring.unlink_apart member (family.ring j) fun x found inside => same (family.apart found inside)

omit [DecidableEq ι] in
theorem insert {L' : RingLinks ι} (family : Family L heads members) (absent : ∀ j, entry ∉ heads j :: members j)
    (entered : Ring L' (heads i) xs) (grown : ∀ x, x ∈ xs ↔ x = entry ∨ x ∈ members i)
    (others : ∀ {h : ι} {ys : List ι}, Ring L h ys → (∀ x ∈ h :: ys, x ∉ heads i :: members i ∧ x ≠ entry) →
      Ring L' h ys) :
    Family L' heads (update members i xs) := by
  have more : ∀ {j x}, x ∈ heads j :: update members i xs j →
      x = entry ∧ j = i ∨ x ∈ heads j :: members j := by
    intro j x found
    by_cases same : j = i
    · subst same
      rw [update_self, mem_cons, grown] at found
      rcases found with rfl | rfl | old
      · exact Or.inr mem_cons_self
      · exact Or.inl ⟨rfl, rfl⟩
      · exact Or.inr (mem_cons_of_mem _ old)
    · rw [update_of_ne same] at found
      exact Or.inr found
  refine ⟨fun j => ?_, fun {j k x} left right => ?_⟩
  · by_cases same : j = i
    · subst same
      rwa [update_self]
    · rw [update_of_ne same]
      exact others (family.ring j) fun x found =>
        ⟨fun inside => same (family.apart found inside), fun new => absent j (new ▸ found)⟩
  · rcases more left with ⟨rfl, rfl⟩ | old
    · rcases more right with ⟨-, rfl⟩ | old'
      · rfl
      · exact absurd old' (absent k)
    · rcases more right with ⟨rfl, rfl⟩ | old'
      · exact absurd old (absent j)
      · exact family.apart old old'

theorem insertTail (family : Family L heads members) (absent : ∀ j, entry ∉ heads j :: members j) (i : κ) :
    Family (L.insertTailList (heads i) entry) heads (update members i (members i ++ [entry])) :=
  family.insert absent ((family.ring i).insertTail (absent i)) (fun x => by simp [or_comm])
    fun aside outside => (family.ring i).insertTail_apart aside outside

theorem insertHead (family : Family L heads members) (absent : ∀ j, entry ∉ heads j :: members j) (i : κ) :
    Family (L.insertHeadList (heads i) entry) heads (update members i (entry :: members i)) := by
  have ring : Ring L (heads i) ([] ++ members i) := family.ring i
  have entered := ring.insertHead_after (absent i)
  exact family.insert absent entered (fun x => mem_cons) fun aside outside =>
    ring.insertHead_apart mem_cons_self aside outside

end Family
end RingLinks
end VeaOS.Foundation
