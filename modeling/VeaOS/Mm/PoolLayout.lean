import VeaOS.Mm.PoolLists

/-! The pool as a whole: its pages are tiled, the free blocks are on the lists of
their sizes and nothing else is, and each block in use has the bytes that were
asked for. The operations on a block are taken one after the other. -/
namespace VeaOS.Mm
open Foundation BoundaryTags Function SmallPool Option
variable {Page : Type*} [DecidableEq Page]

def holeIn (hole : Option (Page × Nat)) (page : Page) : Option Nat :=
  hole.bind fun b => if b.1 = page then some b.2 else none

structure LiveBlock.Stands (ℓ : LiveBlock Page) (σ : SmallPool Page) (layout : Page → List Nat)
    (hole : Option (Page × Nat)) : Prop where
  page : ℓ.page ∈ σ.pages
  offset : ℓ.offset = 8 * (ℓ.unit + 1)
  unit : ℓ.unit ∈ layout ℓ.page
  inside : ℓ.unit ≠ 511
  used : (σ.headers ℓ.page ℓ.unit).poolType = inUse
  room : ℓ.numberOfBytes.toNat + 8 ≤ 8 * (σ.headers ℓ.page ℓ.unit).blockSize
  apart : hole ≠ some (ℓ.page, ℓ.unit)

structure Laid (σ : SmallPool Page) (layout : Page → List Nat) (blocks : Nat → List (Page × Nat))
    (hole : Option (Page × Nat)) : Prop where
  nodup : σ.pages.Nodup
  pages : ∀ page ∈ σ.pages, PageLaid (σ.headers page) (layout page) (holeIn hole page)
  linked : Linked σ blocks
  free : ∀ {i b}, b ∈ blocks i ↔ b.1 ∈ σ.pages ∧ b.2 ∈ layout b.1 ∧
    (σ.headers b.1 b.2).poolType = 0 ∧ hole ≠ some b ∧ (σ.headers b.1 b.2).blockSize = i
  live : ∀ ℓ ∈ σ.live, ℓ.Stands σ layout hole
  once : (σ.live.map fun ℓ => (ℓ.page, ℓ.offset)).Nodup

@[simp] theorem holeIn_none (page : Page) : holeIn none page = none := rfl

@[simp] theorem holeIn_self (page : Page) (unit : Nat) : holeIn (some (page, unit)) page = some unit := if_pos rfl

theorem holeIn_other {page other : Page} (apart : other ≠ page) (unit : Nat) :
    holeIn (some (page, unit)) other = none := if_neg fun same => apart same.symm

theorem holeIn_ne {hole : Option (Page × Nat)} {b : Page × Nat} : holeIn hole b.1 ≠ some b.2 ↔ hole ≠ some b := by
  cases hole with
  | none => simp
  | some c =>
    by_cases same : c.1 = b.1
    · simp [holeIn, same, Prod.ext_iff]
    · simp [holeIn, same, Prod.ext_iff]

omit [DecidableEq Page] in
theorem LiveBlock.Stands.keep {ℓ : LiveBlock Page} {σ τ : SmallPool Page} {layout layout' : Page → List Nat}
    {hole hole' : Option (Page × Nat)} (stands : ℓ.Stands σ layout hole) (page : ℓ.page ∈ τ.pages)
    (unit : ℓ.unit ∈ layout' ℓ.page)
    (type : (τ.headers ℓ.page ℓ.unit).poolType = (σ.headers ℓ.page ℓ.unit).poolType)
    (size : (τ.headers ℓ.page ℓ.unit).blockSize = (σ.headers ℓ.page ℓ.unit).blockSize)
    (apart : hole' ≠ some (ℓ.page, ℓ.unit)) : ℓ.Stands τ layout' hole' :=
  ⟨page, stands.offset, unit, stands.inside, type.trans stands.used, size ▸ stands.room, apart⟩

namespace SmallPool
variable (σ : SmallPool Page) (page : Page) (unit : Nat) (f : PoolHeader → PoolHeader)

@[simp] theorem setHeader_links : (σ.setHeader page unit f).links = σ.links := rfl
@[simp] theorem setHeader_pages : (σ.setHeader page unit f).pages = σ.pages := rfl
@[simp] theorem setHeader_live : (σ.setHeader page unit f).live = σ.live := rfl
@[simp] theorem setHeader_placed : (σ.setHeader page unit f).placed = σ.placed := rfl

theorem setHeader_self : (σ.setHeader page unit f).headers page unit = f (σ.headers page unit) := by
  simp only [setHeader, update_self]

theorem setHeader_other {p : Page} {u : Nat} (other : p ≠ page ∨ u ≠ unit) :
    (σ.setHeader page unit f).headers p u = σ.headers p u := by
  by_cases same : p = page
  · subst same
    simp only [setHeader, update_self]
    exact update_of_ne (other.resolve_left fun apart => apart rfl) _ _
  · simp only [setHeader]
    rw [update_of_ne same]

end SmallPool

namespace Laid
variable {σ τ : SmallPool Page} {layout : Page → List Nat} {blocks : Nat → List (Page × Nat)}
  {hole : Option (Page × Nat)} {page : Page} {t u v w m n i : Nat} {xs ys : List Nat}
  {front back : List (Page × Nat)} {tag : BitVec 32}

theorem page_hole (laid : Laid σ layout blocks (some (page, u))) (known : page ∈ σ.pages) :
    PageLaid (σ.headers page) (layout page) (some u) := by
  have found := laid.pages page known
  rwa [holeIn_self] at found

theorem listed (laid : Laid σ layout blocks hole) (member : (page, u) ∈ blocks i) :
    page ∈ σ.pages ∧ u ∈ layout page ∧ u < 511 ∧ (σ.headers page u).poolType = 0 ∧
      (σ.headers page u).blockSize = i ∧ 0 < i ∧ u + i ≤ 511 := by
  obtain ⟨known, inside, free, _, size⟩ := laid.free.mp member
  dsimp only at known inside free size
  have below := (laid.linked.known i _ member).2
  dsimp only at below
  have placed := laid.pages page known
  have bounds := placed.inside inside
  obtain ⟨xs, ys, split⟩ := placed.next inside (by omega)
  have next := placed.inside (u := u + (σ.headers page u).blockSize) (by simp [split])
  rw [size] at bounds next
  exact ⟨known, inside, below, free, size, bounds.2, by omega⟩

theorem small (laid : Laid σ layout blocks hole) (member : (page, u) ∈ blocks i) : i < 512 := by
  have listed := laid.listed member
  omega

theorem validHeader (laid : Laid σ layout blocks hole) (known : page ∈ σ.pages) (member : u ∈ layout page)
    (other : u ≠ 511) : σ.ulpIsValidPoolBlockHeader page u = true := by
  have placed := laid.pages page known
  obtain ⟨xs, ys, split⟩ := placed.next member other
  have next := placed.inside (u := u + (σ.headers page u).blockSize) (by simp [split])
  have bounds := placed.inside member
  simp only [ulpIsValidPoolBlockHeader, decide_eq_true_eq]
  exact ⟨known, by omega, by omega, by omega⟩

theorem checkHeader (laid : Laid σ layout blocks none) (known : page ∈ σ.pages) (member : u ∈ layout page)
    (other : u ≠ 511) : σ.ulpCheckHeader page u = true := by
  have placed := laid.pages page known
  rw [holeIn_none] at placed
  have bounds := placed.inside member
  obtain ⟨xs, ys, split⟩ := placed.next member other
  have next := placed.inside (u := u + (σ.headers page u).blockSize) (by simp [split])
  have settled := placed.settled_of_none member other
  simp only [ulpCheckHeader, decide_eq_true_eq]
  refine ⟨?_, by omega, fun _ => ⟨by omega, settled⟩⟩
  obtain ⟨first, start⟩ | ⟨xs, t, ys, _, start, size, filled⟩ := placed.previous member fun t none => by cases none
  · rw [if_neg (by omega)]
    exact start
  · have before : u - (σ.headers page u).previousSize = t := by omega
    rw [if_pos (by omega), before]
    exact ⟨by omega, size.symm⟩

theorem take (laid : Laid σ layout blocks none) (split : blocks i = front ++ (page, u) :: back) :
    Laid { σ with links := σ.links.unlinkEntry (linkOf (page, u)) } layout
      (update blocks i (front ++ back)) (some (page, u)) := by
  have listed := laid.listed (show (page, u) ∈ blocks i by simp [split])
  obtain ⟨known, inside, below, type, size, filled, bound⟩ := listed
  refine ⟨laid.nodup, fun p member => ?_, laid.linked.unlinked split, fun {j b} => ?_, fun ℓ member => ?_, laid.once⟩
  · by_cases same : p = page
    · subst same
      rw [holeIn_self]
      exact (laid.pages p member).opened inside (by omega)
    · rw [holeIn_other same]
      exact laid.pages p member
  · rw [laid.linked.mem_unlinked split, laid.free]
    have apart : some (page, u) ≠ some b ↔ b ≠ (page, u) := by
      rw [Ne, some.injEq, eq_comm]
    simp only [apart]
    constructor
    · rintro ⟨⟨known, inside, type, _, size⟩, other⟩
      exact ⟨known, inside, type, other, size⟩
    · rintro ⟨known, inside, type, other, size⟩
      exact ⟨⟨known, inside, type, (fun same => by cases same), size⟩, other⟩
  · have stands := laid.live ℓ member
    refine stands.keep stands.page stands.unit rfl rfl fun same => ?_
    obtain ⟨rfl, rfl⟩ := Prod.mk.inj (some.inj same)
    have used := stands.used
    rw [type] at used
    exact absurd used (by decide)

theorem giveUp (laid : Laid σ layout blocks none) {ℓ : LiveBlock Page} (member : ℓ ∈ σ.live) :
    Laid { σ with live := σ.live.filter fun k => ¬ (k.page = ℓ.page ∧ k.offset = ℓ.offset) } layout blocks
      (some (ℓ.page, ℓ.unit)) := by
  have stands := laid.live ℓ member
  refine ⟨laid.nodup, fun p known => ?_, laid.linked.congr rfl rfl, fun {i b} => ?_, fun k found => ?_,
    laid.once.sublist ((List.filter_sublist).map _)⟩
  · by_cases same : p = ℓ.page
    · subst same
      rw [holeIn_self]
      exact (laid.pages _ known).opened stands.unit stands.inside
    · rw [holeIn_other same]
      exact laid.pages p known
  · rw [laid.free]
    refine and_congr_right fun _ => and_congr_right fun _ => and_congr_right fun type => and_congr_left fun _ => ?_
    refine iff_of_true (fun none => by cases none) fun same => ?_
    obtain rfl := some.inj same
    exact absurd (type.symm.trans stands.used) (by decide)
  · obtain ⟨old, apart⟩ := List.mem_filter.mp found
    have stands' := laid.live k old
    refine stands'.keep stands'.page stands'.unit rfl rfl fun same => ?_
    obtain ⟨pages, units⟩ := Prod.mk.inj (some.inj same)
    have offsets : k.offset = ℓ.offset := by rw [stands'.offset, ← units, ← stands.offset]
    simp [pages, offsets] at apart

theorem onPage {units : List Nat} {hole' : Option (Page × Nat)} {blocks' : Nat → List (Page × Nat)}
    (laid : Laid σ layout blocks hole) (pages : τ.pages = σ.pages)
    (elsewhere : ∀ p, p ≠ page → τ.headers p = σ.headers p)
    (holes : ∀ p, p ≠ page → holeIn hole' p = holeIn hole p)
    (placed : PageLaid (τ.headers page) units (holeIn hole' page)) (linked : Linked τ blocks')
    (known : page ∈ σ.pages)
    (free : ∀ j x, (page, x) ∈ blocks' j ↔ x ∈ units ∧ (τ.headers page x).poolType = 0 ∧
      hole' ≠ some (page, x) ∧ (τ.headers page x).blockSize = j)
    (others : ∀ j (b : Page × Nat), b.1 ≠ page → (b ∈ blocks' j ↔ b ∈ blocks j))
    (live : τ.live = σ.live)
    (here : ∀ ℓ ∈ σ.live, ℓ.page = page → ℓ.Stands τ (update layout page units) hole') :
    Laid τ (update layout page units) blocks' hole' := by
  refine ⟨by rw [pages]; exact laid.nodup, fun p member => ?_, linked, fun {j b} => ?_, fun ℓ member => ?_,
    by rw [live]; exact laid.once⟩
  · by_cases same : p = page
    · subst same
      rwa [update_self]
    · rw [update_of_ne same, elsewhere p same, holes p same]
      exact laid.pages p (pages ▸ member)
  · obtain ⟨p, x⟩ := b
    by_cases same : p = page
    · subst same
      rw [free, update_self, pages]
      exact (and_iff_right known).symm
    · rw [others j (p, x) same, laid.free, update_of_ne same, pages, elsewhere p same, ← holeIn_ne,
        ← holeIn_ne, holes p same]
  · rw [live] at member
    by_cases same : ℓ.page = page
    · exact here ℓ member same
    · have stands := laid.live ℓ member
      refine stands.keep (pages ▸ stands.page) (by rw [update_of_ne same]; exact stands.unit)
        (by rw [elsewhere _ same]) (by rw [elsewhere _ same]) (holeIn_ne.mp ?_)
      rw [holes _ same]
      exact holeIn_ne.mpr stands.apart

end Laid

namespace SmallPool

/-- The headers of the two blocks that a block is cut into, and of the one behind. -/
def cut (σ : SmallPool Page) (page : Page) (u m n : Nat) : SmallPool Page :=
  ((σ.setHeader page u fun header => { header with blockSize := m }).setHeader page (u + m) fun header =>
    { header with previousSize := m, blockSize := n - m, poolType := 0 }).setHeader page (u + n) fun header =>
      { header with previousSize := n - m }

variable {σ : SmallPool Page} {page p : Page} {u m n x : Nat}

theorem cut_first (filled : 0 < m) (less : m < n) :
    (σ.cut p u m n).headers p u = { σ.headers p u with blockSize := m } := by
  rw [cut, setHeader_other _ _ _ _ (Or.inr (by omega)), setHeader_other _ _ _ _ (Or.inr (by omega)), setHeader_self]

theorem cut_second (filled : 0 < m) (less : m < n) : (σ.cut p u m n).headers p (u + m) =
    { σ.headers p (u + m) with previousSize := m, blockSize := n - m, poolType := 0 } := by
  rw [cut, setHeader_other _ _ _ _ (Or.inr (by omega)), setHeader_self, setHeader_other _ _ _ _ (Or.inr (by omega))]

theorem cut_third (filled : 0 < m) (less : m < n) : (σ.cut page u m n).headers page (u + n) =
    { σ.headers page (u + n) with previousSize := n - m } := by
  rw [cut, setHeader_self, setHeader_other _ _ _ _ (Or.inr (by omega)), setHeader_other _ _ _ _ (Or.inr (by omega))]

theorem cut_other (apart : p ≠ page ∨ x ≠ u ∧ x ≠ u + m ∧ x ≠ u + n) :
    (σ.cut page u m n).headers p x = σ.headers p x := by
  rw [cut, setHeader_other _ _ _ _ (apart.imp_right fun all => all.2.2),
    setHeader_other _ _ _ _ (apart.imp_right fun all => all.2.1),
    setHeader_other _ _ _ _ (apart.imp_right fun all => all.1)]

theorem cut_kept (filled : 0 < m) (less : m < n) (first : x ≠ u) (second : x ≠ u + m) :
    ((σ.cut p u m n).headers p x).poolType = (σ.headers p x).poolType ∧
    ((σ.cut p u m n).headers p x).blockSize = (σ.headers p x).blockSize := by
  by_cases third : x = u + n
  · subst third
    rw [cut_third filled less]
    exact ⟨rfl, rfl⟩
  · rw [cut_other (Or.inr ⟨first, second, third⟩)]
    exact ⟨rfl, rfl⟩

end SmallPool

namespace Laid
variable {σ τ : SmallPool Page} {layout : Page → List Nat} {blocks : Nat → List (Page × Nat)}
  {page : Page} {t u m n : Nat}

theorem splitBlock (laid : Laid σ layout blocks (some (page, u))) (known : page ∈ σ.pages)
    (member : u ∈ layout page) (other : u ≠ 511) (size : (σ.headers page u).blockSize = n)
    (used : (σ.headers page (u + n)).poolType ≠ 0) (filled : 0 < m) (less : m < n) :
    ∃ layout' blocks', σ.splitBlock page u m = some (Linked.tailed (σ.cut page u m n) (n - m) page (u + m)) ∧
      Laid (Linked.tailed (σ.cut page u m n) (n - m) page (u + m)) layout' blocks' (some (page, u)) ∧
      u ∈ layout' page := by
  have whole := laid.page_hole known
  obtain ⟨xs, ys, units⟩ := whole.next member other
  have behind := whole.inside (u := u + (σ.headers page u).blockSize) (by simp [units])
  rw [units] at whole
  rw [size] at units behind whole
  have divided : PageLaid ((σ.cut page u m n).headers page) (xs ++ u :: (u + m) :: (u + n) :: ys) (some u) := by
    subst size
    exact whole.split filled less used (SmallPool.cut_first filled less) (SmallPool.cut_second filled less)
      (SmallPool.cut_third filled less) fun x one two three => SmallPool.cut_other (Or.inr ⟨one, two, three⟩)
  have fresh : u + m ∉ layout page := fun inside => by
    have distinct := divided.nodup
    rw [units] at inside
    grind
  have more : ∀ x, x ∈ xs ++ u :: (u + m) :: (u + n) :: ys ↔ x ∈ layout page ∨ x = u + m := fun x => by
    rw [units]
    grind
  have absent : ∀ j, (page, u + m) ∉ blocks j := fun j inside => fresh (laid.free.mp inside).2.1
  have linked : Linked (σ.cut page u m n) blocks := laid.linked.congr rfl rfl
  obtain ⟨inserted, entered⟩ := linked.insertTail (i := n - m) (by omega) absent
    ⟨known, by omega⟩
  have grown : ∀ {j c}, c ∈ Function.update blocks (n - m) (blocks (n - m) ++ [(page, u + m)]) j ↔
      c ∈ blocks j ∨ (j = n - m ∧ c = (page, u + m)) := fun {j c} =>
    Linked.mem_entered fun c => by rw [List.mem_append, List.mem_singleton, or_comm]
  refine ⟨_, _, ?_, laid.onPage rfl ?_ (fun p _ => rfl) (by rwa [holeIn_self]) entered known ?_ ?_ rfl ?_, ?_⟩
  · rw [← inserted, SmallPool.splitBlock]
    simp only [size]
    rw [if_pos (by omega)]
    rfl
  · exact fun p apart => funext fun x => SmallPool.cut_other (Or.inl apart)
  · intro j x
    rw [grown, more, laid.free]
    have second : (σ.cut page u m n).headers page (u + m) = _ := SmallPool.cut_second filled less
    change _ ↔ _ ∧ ((σ.cut page u m n).headers page x).poolType = 0 ∧ _ ∧
      ((σ.cut page u m n).headers page x).blockSize = j
    by_cases new : x = u + m
    · subst new
      have apart : some (page, u) ≠ some (page, u + m) := fun same => by
        have := (Prod.mk.inj (Option.some.inj same)).2
        omega
      rw [second]
      simp only [fresh, false_and, and_false, false_or, and_true, or_true, true_and, apart, ne_eq, not_false_eq_true]
      exact eq_comm
    · have notNew : (page, x) ≠ (page, u + m) := fun same => new (Prod.mk.inj same).2
      rw [or_iff_left fun both : j = n - m ∧ _ => notNew both.2, or_iff_left new, and_iff_right known]
      by_cases hole : x = u
      · subst hole
        simp only [ne_eq, not_true, false_and, and_false]
      · have kept := SmallPool.cut_kept filled less hole new (σ := σ) (p := page)
        rw [kept.1, kept.2]
  · intro j b apart
    rw [grown]
    exact or_iff_left fun both => apart (congrArg Prod.fst both.2)
  · intro ℓ found same
    have stands := laid.live ℓ found
    subst same
    have notHole : ℓ.unit ≠ u := fun equal => stands.apart (by rw [equal])
    have notNew : ℓ.unit ≠ u + m := fun equal => fresh (equal ▸ stands.unit)
    have kept := SmallPool.cut_kept filled less notHole notNew (σ := σ) (p := ℓ.page)
    refine stands.keep stands.page ?_ kept.1 kept.2 stands.apart
    rw [Function.update_self, more]
    exact Or.inl stands.unit
  · rw [Function.update_self, more]
    exact Or.inl member

/-- A free neighbour leaves its list, and it and the hole become one block. -/
theorem absorb {xs ys : List Nat} {front back : List (Page × Nat)} {a b i v w : Nat}
    (laid : Laid σ layout blocks (some (page, a))) (known : page ∈ σ.pages)
    (units : layout page = xs ++ t :: v :: w :: ys) (either : a = t ∧ b = v ∨ a = v ∧ b = t)
    (split : blocks i = front ++ (page, b) :: back) :
    Laid ({ σ with links := σ.links.unlinkEntry (linkOf (page, b)) }.setHeader page t fun h =>
        { h with blockSize := (h.blockSize + (σ.headers page v).blockSize) % 512 })
      (update layout page (xs ++ t :: w :: ys)) (update blocks i (front ++ back))
      (some (page, t)) := by
  have whole := laid.page_hole known
  rw [units] at whole
  obtain ⟨_, _, _, filled, next, _, filled', ⟨next', _, _⟩, _⟩ := tiled_next.mp whole.tiled
  have inside := whole.inside (u := w) (by simp)
  simp only [PageLaid.tagsBut_size] at next next' filled filled'
  have distinct := whole.nodup
  have left : ∀ x, x ∈ xs ++ t :: w :: ys ↔ x ∈ layout page ∧ x ≠ v := fun x => by
    rw [units]
    grind
  have both : ∀ x, (x = a ∨ x = b) ↔ (x = t ∨ x = v) := by omega
  set τ := { σ with links := σ.links.unlinkEntry (linkOf (page, b)) }.setHeader page t fun h =>
    { h with blockSize := (h.blockSize + (σ.headers page v).blockSize) % 512 }
  have atFirst : τ.headers page t =
      { σ.headers page t with blockSize := (σ.headers page t).blockSize + (σ.headers page v).blockSize } := by
    refine (setHeader_self _ _ _ _).trans ?_
    have small : (σ.headers page t).blockSize + (σ.headers page v).blockSize < 512 := by omega
    simp only [Nat.mod_eq_of_lt small]
  have elsewhere : ∀ p x, p ≠ page ∨ x ≠ t → τ.headers p x = σ.headers p x :=
    fun p x apart => setHeader_other _ _ _ _ apart
  have merged : PageLaid (τ.headers page) (xs ++ t :: w :: ys) (some t) :=
    whole.merge (either.imp (fun same => congrArg some same.1) fun same => congrArg some same.1) atFirst
      fun x apart => elsewhere page x (Or.inr apart)
  refine laid.onPage rfl (fun p apart => funext fun x => elsewhere p x (Or.inl apart)) (fun p apart => ?_)
    (by rwa [holeIn_self]) ((laid.linked.unlinked split).congr rfl rfl) known (fun j x => ?_) (fun j c apart => ?_)
    rfl fun ℓ found same => ?_
  · rw [holeIn_other apart, holeIn_other apart]
  · rw [laid.linked.mem_unlinked split, laid.free, left]
    have pair : ∀ y, (page, x) ≠ (page, y) ↔ x ≠ y := fun y => by simp
    have pair' : ∀ y, some (page, y) ≠ some (page, x) ↔ x ≠ y := fun y => by
      rw [Ne, some.injEq, Prod.mk.injEq, and_iff_right rfl]
      exact ne_comm
    rw [pair, pair', pair', and_iff_right known]
    by_cases gone : x = t ∨ x = v
    · have gone' := (both x).mpr gone
      grind
    · have stays : ¬ (x = a ∨ x = b) := fun found => gone ((both x).mp found)
      rw [elsewhere page x (Or.inr fun same => gone (Or.inl same))]
      grind
  · rw [laid.linked.mem_unlinked split]
    exact and_iff_left fun same => apart (congrArg Prod.fst same)
  · have stands := laid.live ℓ found
    subst same
    have free := laid.listed (show (ℓ.page, b) ∈ blocks i by rw [split]; simp)
    have notHole : ℓ.unit ≠ a := fun equal => stands.apart (by rw [equal])
    have notFree : ℓ.unit ≠ b := fun equal => by
      have used := stands.used
      rw [equal, free.2.2.2.1] at used
      exact absurd used (by decide)
    have stays : ¬ (ℓ.unit = t ∨ ℓ.unit = v) := fun gone => ((both _).mpr gone).elim notHole notFree
    have same := elsewhere ℓ.page ℓ.unit (Or.inr fun equal => stays (Or.inl equal))
    refine stands.keep stands.page ?_ (by rw [same]) (by rw [same]) fun equal => ?_
    · rw [update_self, left]
      exact ⟨stands.unit, fun equal => stays (Or.inr equal)⟩
    · exact stays (Or.inl (Prod.mk.inj (some.inj equal)).2.symm)

/-- The hole becomes a block in use. -/
theorem use (laid : Laid σ layout blocks (some (page, u))) (known : page ∈ σ.pages) (member : u ∈ layout page)
    (other : u ≠ 511)
    (settled : (σ.headers page (u + (σ.headers page u).blockSize)).previousSize = (σ.headers page u).blockSize)
    (tag numberOfBytes : BitVec 32) (room : numberOfBytes.toNat + 8 ≤ 8 * (σ.headers page u).blockSize) :
    Laid { σ.setHeader page u (fun header => { header with poolType := inUse, poolTag := tag }) with
        live := ⟨page, 8 * (u + 1), numberOfBytes⟩ :: σ.live } layout blocks none := by
  have whole := laid.page_hole known
  set τ := σ.setHeader page u fun header => { header with poolType := inUse, poolTag := tag }
  have here : τ.headers page u = { σ.headers page u with poolType := inUse, poolTag := tag } :=
    setHeader_self _ _ _ _
  have elsewhere : ∀ p x, p ≠ page ∨ x ≠ u → τ.headers p x = σ.headers p x :=
    fun p x apart => setHeader_other _ _ _ _ apart
  have sizes : ∀ x, (τ.headers page x).blockSize = (σ.headers page x).blockSize ∧
      (τ.headers page x).previousSize = (σ.headers page x).previousSize := fun x => by
    by_cases same : x = u
    · rw [same, here]
      exact ⟨rfl, rfl⟩
    · rw [elsewhere page x (Or.inr same)]
      exact ⟨rfl, rfl⟩
  have placed : PageLaid (τ.headers page) (layout page) none :=
    whole.used settled (by rw [here]; exact Nat.one_ne_zero) (by rw [elsewhere page 511 (Or.inr (Ne.symm other))]; exact whole.marker)
      sizes fun x apart => by rw [elsewhere page x (Or.inr apart)]
  have closed : Laid τ (update layout page (layout page)) blocks none := by
    refine laid.onPage rfl (fun p apart => funext fun x => elsewhere p x (Or.inl apart)) (fun p apart => ?_)
      placed (laid.linked.congr rfl rfl) known (fun j x => ?_) (fun j b _ => Iff.rfl) rfl fun ℓ found same => ?_
    · rw [holeIn_other apart]
      rfl
    · rw [laid.free, and_iff_right known, (sizes x).1]
      refine and_congr_right fun _ => ?_
      by_cases same : x = u
      · have type : (τ.headers page u).poolType ≠ 0 := by
          rw [here]
          exact Nat.one_ne_zero
        rw [same]
        exact iff_of_false (fun both => both.2.1 rfl) fun both => type both.1
      · rw [elsewhere page x (Or.inr same)]
        refine and_congr_right fun _ => and_congr_left fun _ => iff_of_true (fun equal => ?_) fun equal => by cases equal
        exact same (Prod.mk.inj (some.inj equal)).2.symm
    · have stands := laid.live ℓ found
      have apart : ℓ.unit ≠ u := fun equal => stands.apart (by rw [same, equal])
      rw [← same] at elsewhere
      rw [update_eq_self]
      have equal := elsewhere ℓ.page ℓ.unit (Or.inr apart)
      exact stands.keep stands.page stands.unit (by rw [equal]) (by rw [equal]) fun none => by cases none
  rw [update_eq_self] at closed
  have new : LiveBlock.Stands ⟨page, 8 * (u + 1), numberOfBytes⟩ τ layout none := by
    have unit : LiveBlock.unit ⟨page, 8 * (u + 1), numberOfBytes⟩ = u := by
      simp only [LiveBlock.unit]
      omega
    refine ⟨known, by rw [unit], by rwa [unit], by rwa [unit], by rw [unit, here], ?_, fun none => by cases none⟩
    rw [unit, (sizes u).1]
    exact room
  refine ⟨closed.nodup, closed.pages, closed.linked.congr rfl rfl, closed.free, fun ℓ found => ?_, ?_⟩
  · rcases List.mem_cons.mp found with rfl | old
    · exact new.keep new.page new.unit rfl rfl new.apart
    · have stands := closed.live ℓ old
      exact stands.keep stands.page stands.unit rfl rfl stands.apart
  · refine List.nodup_cons.mpr ⟨fun found => ?_, closed.once⟩
    obtain ⟨ℓ, old, same⟩ := List.mem_map.mp found
    obtain ⟨pages, offsets⟩ := Prod.mk.inj same
    have stands := laid.live ℓ old
    refine stands.apart ?_
    rw [pages, LiveBlock.unit, offsets]
    simp only [some.injEq, Prod.mk.injEq, true_and]
    omega

end Laid
end VeaOS.Mm
