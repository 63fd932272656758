import Mathlib.Data.List.Basic

/-! Doubly linked lists through links that the nodes carry, from a pointer to
the first node. What a list in the memory holds is a list of nodes, in which
both links of a node name its neighbours. -/
namespace VeaOS.Foundation
open List
variable {ι : Type*}

structure DoubleList (ι : Type*) where
  next : ι → Option ι
  prev : ι → Option ι
  first : Option ι

namespace DoubleList

section Memory
variable [DecidableEq ι]

def setNext (L : DoubleList ι) (x : ι) (v : Option ι) : DoubleList ι :=
  { L with next := fun y => if y = x then v else L.next y }

def setPrev (L : DoubleList ι) (x : ι) (v : Option ι) : DoubleList ι :=
  { L with prev := fun y => if y = x then v else L.prev y }

/-- The neighbours of a node are linked to each other. -/
def unlink (L : DoubleList ι) (x : ι) : DoubleList ι :=
  let flink := L.next x
  let blink := L.prev x
  let L := match blink with
    | some b => L.setNext b flink
    | none => { L with first := flink }
  let L := match flink with
    | some f => L.setPrev f blink
    | none => L
  (L.setNext x none).setPrev x none

def insertHead (L : DoubleList ι) (x : ι) : DoubleList ι :=
  let L := (L.setNext x L.first).setPrev x none
  let L := match L.first with
    | some f => L.setPrev f (some x)
    | none => L
  { L with first := some x }

end Memory

/-- The list in the memory holds these nodes, in this order. -/
structure Linked (L : DoubleList ι) (xs : List ι) : Prop where
  distinct : xs.Nodup
  first : L.first = xs.head?
  links {l x r} : xs = l ++ x :: r → L.prev x = l.getLast? ∧ L.next x = r.head?

variable {L L' : DoubleList ι} {xs : List ι}

theorem Linked.congr (linked : Linked L xs) (first : L'.first = L.first)
    (next : ∀ x ∈ xs, L'.next x = L.next x) (prev : ∀ x ∈ xs, L'.prev x = L.prev x) :
    Linked L' xs := by
  refine ⟨linked.distinct, first.trans linked.first, fun {l x r} split => ?_⟩
  have member : x ∈ xs := by simp [split]
  rw [next x member, prev x member]
  exact linked.links split

section Updates
variable [DecidableEq ι]

theorem unlink_next (L : DoubleList ι) (x y : ι) : (L.unlink x).next y =
    if y = x then none else if L.prev x = some y then L.next x else L.next y := by
  unfold unlink
  cases L.prev x <;> cases L.next x <;> simp only [setNext, setPrev] <;> grind

theorem unlink_prev (L : DoubleList ι) (x y : ι) : (L.unlink x).prev y =
    if y = x then none else if L.next x = some y then L.prev x else L.prev y := by
  unfold unlink
  cases L.prev x <;> cases L.next x <;> simp only [setNext, setPrev] <;> grind

theorem unlink_first (L : DoubleList ι) (x : ι) : (L.unlink x).first =
    if L.prev x = none then L.next x else L.first := by
  unfold unlink
  cases L.prev x <;> cases L.next x <;> simp [setNext, setPrev]

theorem insertHead_next (L : DoubleList ι) (x y : ι) : (L.insertHead x).next y =
    if y = x then L.first else L.next y := by
  unfold insertHead
  cases first : L.first <;> simp [setNext, setPrev, first]

theorem insertHead_prev (L : DoubleList ι) (x y : ι) : (L.insertHead x).prev y =
    if L.first = some y then some x else if y = x then none else L.prev y := by
  unfold insertHead
  cases first : L.first <;> simp only [setNext, setPrev, first] <;> grind

theorem Linked.unlink (linked : Linked L xs) (member : x ∈ xs) : Linked (L.unlink x) (xs.erase x) := by
  obtain ⟨a, b, rfl, absent⟩ := eq_append_cons_of_mem member
  rw [erase_append_right _ absent, erase_cons_head]
  obtain ⟨prevX, nextX⟩ := linked.links rfl
  have first := linked.first
  obtain ⟨distinctA, distinctXB, apart⟩ := nodup_append.mp linked.distinct
  obtain ⟨outside, distinctB⟩ := nodup_cons.mp distinctXB
  have notLast : ∀ y ∈ b, a.getLast? ≠ some y := fun y inB last =>
    apart y (mem_of_getLast? last) y (mem_cons_of_mem _ inB) rfl
  have notHead : ∀ y ∈ a, b.head? ≠ some y := fun y inA head =>
    apart y inA y (mem_cons_of_mem _ (mem_of_mem_head? head)) rfl
  -- The node stands behind the place of `x`.
  have behind : ∀ {p y r}, b = p ++ y :: r →
      (L.unlink x).prev y = (a ++ p).getLast? ∧ (L.unlink x).next y = r.head? := by
    rintro p y r rfl
    obtain ⟨prevY, nextY⟩ := linked.links (l := a ++ x :: p) (x := y) (r := r) (by simp)
    have other : y ≠ x := by
      rintro rfl
      exact outside (by simp)
    rw [unlink_prev, unlink_next, if_neg other, if_neg other, prevX, nextX, nextY,
      if_neg (notLast y (by simp))]
    refine ⟨?_, rfl⟩
    cases p with
    | nil => simp
    | cons z p =>
      have apartZ : z ≠ y := by
        rintro rfl
        simp at distinctB
      rw [cons_append, head?_cons, if_neg (by simpa using apartZ), prevY]
      simp [getLast?_cons]
  have inFront : ∀ {l y r}, a = l ++ y :: r →
      (L.unlink x).prev y = l.getLast? ∧ (L.unlink x).next y = (r ++ b).head? := by
    rintro l y r rfl
    obtain ⟨prevY, nextY⟩ := linked.links (l := l) (x := y) (r := r ++ x :: b) (by simp)
    have other : y ≠ x := by
      rintro rfl
      exact absent (by simp)
    rw [unlink_prev, unlink_next, if_neg other, if_neg other, prevX, nextX, prevY,
      if_neg (notHead y (by simp))]
    refine ⟨rfl, ?_⟩
    cases r with
    | nil => simp
    | cons z r =>
      have apartY : (l ++ y :: z :: r).getLast? ≠ some y := by
        intro last
        rw [getLast?_append, getLast?_cons_cons] at last
        have inTail : y ∈ z :: r := mem_of_getLast? (by simpa using last)
        exact (nodup_cons.mp (nodup_append.mp distinctA).2.1).1 inTail
      rw [if_neg apartY, nextY]
      rfl
  refine ⟨nodup_append.mpr ⟨distinctA, distinctB, fun y inA z inB =>
    apart y inA z (mem_cons_of_mem _ inB)⟩, ?_, fun {l y r} split => ?_⟩
  · rw [unlink_first, prevX, nextX, first]
    cases a <;> simp
  · rcases append_eq_append_iff.mp split with ⟨p, rfl, inB⟩ | ⟨q, inA, rest⟩
    · exact behind inB
    · cases q with
      | nil =>
        rw [append_nil] at inA
        rw [nil_append] at rest
        subst l
        simpa using behind (p := []) rest.symm
      | cons z q =>
        simp only [cons_append, cons.injEq] at rest
        obtain ⟨rfl, rfl⟩ := rest
        exact inFront inA

theorem Linked.insertHead (linked : Linked L xs) (absent : x ∉ xs) :
    Linked (L.insertHead x) (x :: xs) := by
  refine ⟨nodup_cons.mpr ⟨absent, linked.distinct⟩, rfl, fun {l y r} split => ?_⟩
  have first := linked.first
  rw [insertHead_next, insertHead_prev, first]
  cases l with
  | nil =>
    simp only [nil_append, cons.injEq] at split
    obtain ⟨rfl, rfl⟩ := split
    have notHead : xs.head? ≠ some x := fun head => absent (mem_of_mem_head? head)
    simp [notHead]
  | cons z l =>
    simp only [cons_append, cons.injEq] at split
    obtain ⟨rfl, rfl⟩ := split
    obtain ⟨prevY, nextY⟩ := linked.links rfl
    have other : y ≠ x := by
      rintro rfl
      exact absent (by simp)
    rw [if_neg other, if_neg other, prevY, nextY]
    refine ⟨?_, rfl⟩
    cases l with
    | nil => simp
    | cons w l =>
      have apart : w ≠ y := by
        have distinct := linked.distinct
        rintro rfl
        simp at distinct
      simp [apart, getLast?_cons]

end Updates

theorem Linked.snoc (linked : Linked L xs) (absent : x ∉ xs) (first : L'.first = (xs ++ [x]).head?)
    (prev : L'.prev x = xs.getLast?) (next : L'.next x = none) (link : ∀ y, xs.getLast? = some y → L'.next y = some x)
    (others : ∀ y ∈ xs, L'.prev y = L.prev y ∧ (xs.getLast? ≠ some y → L'.next y = L.next y)) :
    Linked L' (xs ++ [x]) := by
  refine ⟨nodup_append.mpr ⟨linked.distinct, pairwise_singleton _ x, ?_⟩, first, fun {l y r} split => ?_⟩
  · rintro y member z single rfl
    exact absent (mem_singleton.mp single ▸ member)
  · rcases append_eq_append_iff.mp split with ⟨p, rfl, tail⟩ | ⟨q, rfl, rest⟩
    · -- the new node
      cases p with
      | nil =>
        obtain ⟨rfl, rfl⟩ := cons.inj tail
        rw [append_nil, prev, next]
        exact ⟨rfl, rfl⟩
      | cons z p => cases p <;> cases tail
    · cases q with
      | nil =>
        obtain ⟨rfl, rfl⟩ := cons.inj rest
        rw [append_nil] at prev
        exact ⟨prev, next⟩
      | cons z q =>
        obtain ⟨rfl, rfl⟩ := cons.inj rest
        obtain ⟨prevY, nextY⟩ := linked.links rfl
        obtain ⟨samePrev, sameNext⟩ := others y (by simp)
        refine ⟨samePrev.trans prevY, ?_⟩
        cases q with
        | nil => exact link y (by simp)
        | cons w q =>
          rw [sameNext, nextY]
          · rfl
          · intro last
            have distinct := linked.distinct
            rw [getLast?_append, getLast?_cons_cons] at last
            have inTail : y ∈ w :: q := mem_of_getLast? (by simpa using last)
            exact (nodup_cons.mp (nodup_append.mp distinct).2.1).1 inTail

theorem Linked.getElem?_succ (linked : Linked L xs) (at_ : xs[i]? = some x) : xs[i + 1]? = L.next x := by
  obtain ⟨inside, here⟩ := List.getElem?_eq_some_iff.mp at_
  have split : xs = xs.take i ++ x :: xs.drop (i + 1) := by
    rw [← here, List.getElem_cons_drop, List.take_append_drop]
  rw [(linked.links split).2, List.head?_drop]

theorem Linked.unique (one : Linked L xs) (two : Linked L ys) : xs = ys := by
  apply ext_getElem?
  intro i
  induction i with
  | zero => rw [← head?_eq_getElem?, ← head?_eq_getElem?, ← one.first, ← two.first]
  | succ i ih =>
    cases at_ : xs[i]? with
    | none =>
      have ended := getElem?_eq_none_iff.mp at_
      have endedToo := getElem?_eq_none_iff.mp (ih ▸ at_)
      rw [getElem?_eq_none (by omega), getElem?_eq_none (by omega)]
    | some x => rw [one.getElem?_succ at_, two.getElem?_succ (ih ▸ at_)]

end DoubleList
end VeaOS.Foundation
