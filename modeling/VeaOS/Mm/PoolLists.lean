import VeaOS.Mm.PoolPages

/-! The free lists of the pool through the links in its memory: the checks of the
links never stop the system, and a block is put on or taken off its own list. -/
namespace VeaOS.Mm
open Foundation RingLinks Function List PoolLink
variable {Page : Type*}

def linkOf (b : Page × Nat) : PoolLink Page := .freeBlock b.1 b.2

theorem linkOf_injective : Injective (linkOf : Page × Nat → PoolLink Page) := fun a b same => by
  cases a
  cases b
  simpa [linkOf] using same

/-- The links hold these lists of blocks, whose links lie inside their pages. -/
structure Linked (σ : SmallPool Page) (blocks : Nat → List (Page × Nat)) : Prop where
  family : Family σ.links PoolLink.listHead fun i => (blocks i).map linkOf
  known : ∀ i, ∀ b ∈ blocks i, b.1 ∈ σ.pages ∧ b.2 < 511

namespace Linked
variable {σ : SmallPool Page} {blocks : Nat → List (Page × Nat)} {xs ys : List (Page × Nat)} {b : Page × Nat}
  {i j n : Nat} {page : Page} {unit : Nat}

theorem congr {τ : SmallPool Page} (linked : Linked σ blocks) (links : τ.links = σ.links)
    (pages : τ.pages = σ.pages) : Linked τ blocks :=
  ⟨by rw [links]; exact linked.family, by rw [pages]; exact linked.known⟩

theorem nodup (linked : Linked σ blocks) (i : Nat) : (blocks i).Nodup :=
  Nodup.of_map _ (nodup_cons.mp (linked.family.ring i).distinct).2

theorem list_eq (linked : Linked σ blocks) (one : b ∈ blocks i) (two : b ∈ blocks j) : i = j :=
  linked.family.apart (mem_cons_of_mem _ (mem_map_of_mem one))
    (mem_cons_of_mem _ (mem_map_of_mem two))

theorem flink_mem (linked : Linked σ blocks) {x : PoolLink Page}
    (member : x ∈ listHead i :: (blocks i).map linkOf) :
    σ.links.flink x ∈ listHead i :: (blocks i).map linkOf := by
  have ring := linked.family.ring i
  rcases mem_cons.mp member with rfl | inside
  · have found := ring.linked.flink_mem
    grind
  · obtain ⟨front, back, split⟩ := append_of_mem inside
    have found := (segment_append.mp (split ▸ ring.linked)).2.flink_mem
    rw [split]
    grind

theorem blink_mem (linked : Linked σ blocks) {x : PoolLink Page}
    (member : x ∈ listHead i :: (blocks i).map linkOf) :
    σ.links.blink x ∈ listHead i :: (blocks i).map linkOf := by
  have ring := linked.family.ring i
  rcases mem_cons.mp member with rfl | inside
  · exact ring.linked.blink_mem
  · obtain ⟨front, back, split⟩ := append_of_mem inside
    have found := (segment_append.mp (split ▸ ring.linked)).1.blink_mem
    rw [split]
    grind

theorem absent_link (absent : ∀ j, b ∉ blocks j) :
    ∀ j, linkOf b ∉ listHead j :: (blocks j).map linkOf := fun j member => by
  rcases mem_cons.mp member with same | inside
  · cases same
  · obtain ⟨c, found, same⟩ := mem_map.mp inside
    exact absent j (linkOf_injective same ▸ found)

theorem entered {links : RingLinks (PoolLink Page)} (linked : Linked σ blocks) (placed : List Nat)
    (family : Family links listHead
      (update (fun j => (blocks j).map linkOf) i (xs.map linkOf)))
    (grown : ∀ c ∈ xs, c = b ∨ c ∈ blocks i) (known : b.1 ∈ σ.pages ∧ b.2 < 511) :
    Linked { σ with links := links, placed := placed } (update blocks i xs) := by
  have lists : (fun j => (update blocks i xs j).map linkOf) =
      update (fun j => (blocks j).map linkOf) i (xs.map linkOf) := by
    funext j
    by_cases same : j = i
    · subst same
      rw [update_self, update_self]
    · rw [update_of_ne same, update_of_ne same]
  refine ⟨lists ▸ family, fun j c member => ?_⟩
  by_cases same : j = i
  · subst same
    rw [update_self] at member
    exact (grown c member).elim (fun new => new ▸ known) fun old => linked.known j c old
  · rw [update_of_ne same] at member
    exact linked.known j c member

theorem mem_entered (same : ∀ c, c ∈ xs ↔ c = b ∨ c ∈ blocks i) {c : Page × Nat} :
    c ∈ update blocks i xs j ↔ c ∈ blocks j ∨ (j = i ∧ c = b) := by
  by_cases here : j = i
  · subst here
    rw [update_self, same]
    simp [or_comm]
  · rw [update_of_ne here]
    simp [here]

theorem mem_unlinked (linked : Linked σ blocks) (split : blocks i = xs ++ b :: ys) {c : Page × Nat} :
    c ∈ update blocks i (xs ++ ys) j ↔ c ∈ blocks j ∧ c ≠ b := by
  by_cases same : j = i
  · subst same
    have distinct := linked.nodup j
    rw [split] at distinct
    rw [update_self, split]
    grind
  · rw [update_of_ne same]
    refine ⟨fun member => ⟨member, fun equal => same ?_⟩, fun both => both.1⟩
    exact linked.list_eq member (by rw [equal, split]; simp)

variable [DecidableEq Page]

theorem valid (linked : Linked σ blocks) (small : i < 512) {x : PoolLink Page}
    (member : x ∈ listHead i :: (blocks i).map linkOf) : σ.ulpIsValidListPointer x = true := by
  rcases mem_cons.mp member with rfl | inside
  · simpa [SmallPool.ulpIsValidListPointer] using small
  · obtain ⟨b, found, rfl⟩ := mem_map.mp inside
    simpa [SmallPool.ulpIsValidListPointer, linkOf] using linked.known i b found

theorem checkLinks (linked : Linked σ blocks) (small : i < 512) : σ.ulpCheckLinks i = true := by
  have ring := linked.family.ring i
  have head : listHead i ∈ listHead i :: (blocks i).map linkOf := mem_cons_self
  have flink := linked.valid small (linked.flink_mem head)
  have blink := linked.valid small (linked.blink_mem head)
  simp only [SmallPool.ulpCheckLinks, decide_eq_true_eq]
  exact Or.inr ⟨flink, blink, ring.blink_flink, ring.flink_blink⟩

theorem unlinked (linked : Linked σ blocks) (split : blocks i = xs ++ b :: ys) :
    Linked { σ with links := σ.links.unlinkEntry (linkOf b) } (update blocks i (xs ++ ys)) := by
  have lists : (fun j => (update blocks i (xs ++ ys) j).map linkOf) =
      update (fun j => (blocks j).map linkOf) i (xs.map linkOf ++ ys.map linkOf) := by
    funext j
    by_cases same : j = i
    · subst same
      rw [update_self, update_self, map_append]
    · rw [update_of_ne same, update_of_ne same]
  refine ⟨lists ▸ linked.family.unlink (by rw [split, map_append, map_cons]), fun j c member => ?_⟩
  refine linked.known j c ?_
  by_cases same : j = i
  · subst same
    rw [update_self] at member
    rw [split]
    grind
  · rwa [update_of_ne same] at member

theorem removeEntry (linked : Linked σ blocks) (small : i < 512) (split : blocks i = xs ++ (page, unit) :: ys) :
    σ.ulpRemoveEntry page unit = some { σ with links := σ.links.unlinkEntry (linkOf (page, unit)) } := by
  have member : linkOf (page, unit) ∈ listHead i :: (blocks i).map linkOf := by
    rw [split]
    simp
  have ring := linked.family.ring i
  rw [split, map_append, map_cons] at ring
  have here := ring.rotate
  have valid := linked.valid small member
  have flink := linked.valid small (linked.flink_mem member)
  have blink := linked.valid small (linked.blink_mem member)
  rw [SmallPool.ulpRemoveEntry]
  exact if_pos ⟨valid, flink, blink, here.blink_flink, here.flink_blink⟩

theorem removeHead (linked : Linked σ blocks) (small : i < 512) (first : blocks i = (page, unit) :: ys) :
    σ.ulpRemoveHead i =
      some ({ σ with links := σ.links.unlinkEntry (linkOf (page, unit)) }, page, unit) := by
  have ring := linked.family.ring i
  rw [first] at ring
  have flink : σ.links.flink (.listHead i) = .freeBlock page unit := ring.linked.1.1
  have blink : σ.links.blink (.freeBlock page unit) = .listHead i := ring.linked.1.2
  simp only [SmallPool.ulpRemoveHead, if_pos (linked.checkLinks small), flink, unlinkEntry, linkOf, blink]
  rfl

/-- The pool after a block was put at the end of a list. -/
def tailed (σ : SmallPool Page) (i : Nat) (page : Page) (unit : Nat) : SmallPool Page :=
  { σ with
    links := σ.links.insertTailList (.listHead i) (.freeBlock page unit)
    placed := (σ.headers page unit).blockSize :: σ.placed }

def headed (σ : SmallPool Page) (i : Nat) (page : Page) (unit : Nat) : SmallPool Page :=
  { σ with
    links := σ.links.insertHeadList (.listHead i) (.freeBlock page unit)
    placed := (σ.headers page unit).blockSize :: σ.placed }

theorem insertTail (linked : Linked σ blocks) (small : i < 512) (absent : ∀ j, (page, unit) ∉ blocks j)
    (known : page ∈ σ.pages ∧ unit < 511) :
    σ.ulpInsertTail i page unit = some (tailed σ i page unit) ∧
    Linked (tailed σ i page unit) (update blocks i (blocks i ++ [(page, unit)])) := by
  have after : Linked (tailed σ i page unit) (update blocks i (blocks i ++ [(page, unit)])) := by
    refine linked.entered (b := (page, unit)) _ ?_ (fun c member => ?_) known
    · rw [map_append]
      exact linked.family.insertTail (absent_link absent) i
    · exact (mem_append.mp member).elim Or.inr fun new => Or.inl (mem_singleton.mp new)
  exact ⟨if_pos ⟨linked.checkLinks small, after.checkLinks small⟩, after⟩

theorem insertHead (linked : Linked σ blocks) (small : i < 512) (absent : ∀ j, (page, unit) ∉ blocks j)
    (known : page ∈ σ.pages ∧ unit < 511) :
    σ.ulpInsertHead i page unit = some (headed σ i page unit) ∧
    Linked (headed σ i page unit) (update blocks i ((page, unit) :: blocks i)) := by
  have after : Linked (headed σ i page unit) (update blocks i ((page, unit) :: blocks i)) :=
    linked.entered _ (linked.family.insertHead (absent_link absent) i) (fun c member => mem_cons.mp member)
      known
  exact ⟨if_pos ⟨linked.checkLinks small, after.checkLinks small⟩, after⟩

theorem isListEmpty (linked : Linked σ blocks) (i : Nat) :
    σ.links.isListEmpty (.listHead i) = (blocks i).isEmpty := by
  rw [(linked.family.ring i).isListEmpty, isEmpty_map]

theorem firstFit_some (linked : Linked σ blocks) (found : σ.firstFit n = some i) :
    n ≤ i ∧ i < 512 ∧ ∃ b ys, blocks i = b :: ys := by
  have member := mem_of_find?_eq_some found
  have filled := find?_some found
  rw [linked.isListEmpty] at filled
  obtain ⟨low, high⟩ := mem_range'_1.mp member
  refine ⟨low, by omega, ?_⟩
  cases list : blocks i with
  | nil => simp [list] at filled
  | cons b ys => exact ⟨b, ys, rfl⟩

end Linked
end VeaOS.Mm
