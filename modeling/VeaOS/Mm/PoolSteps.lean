import VeaOS.Mm.PoolLayout

/-! What a call does to the pool: no check stops the system, and the pages stay
tiled with the free blocks on their lists. -/
namespace VeaOS.Mm
open Foundation BoundaryTags Function List SmallPool Option
variable {Page : Type*} [DecidableEq Page]

namespace Laid
variable {σ τ : SmallPool Page} {layout : Page → List Nat} {blocks : Nat → List (Page × Nat)}
  {page : Page} {t u m n i : Nat}

/-- The hole becomes a free block, or its page is given back. -/
theorem release (laid : Laid σ layout blocks (some (page, u))) (known : page ∈ σ.pages)
    (member : u ∈ layout page) (other : u ≠ 511) (size : (σ.headers page u).blockSize = n)
    (front : ∀ t ∈ layout page, u = t + (σ.headers page t).blockSize → (σ.headers page t).poolType ≠ 0)
    (behind : (σ.headers page (u + n)).poolType ≠ 0) :
    ∃ τ layout' blocks', σ.release page u = some τ ∧ Laid τ layout' blocks' none ∧ τ.live = σ.live ∧
      τ.placed = if n = 511 then σ.placed else n :: σ.placed := by
  subst size
  have whole := laid.page_hole known
  obtain ⟨xs, ys, units⟩ := whole.next member other
  have next := whole.inside (u := u + (σ.headers page u).blockSize) (by simp [units])
  have inside := whole.inside member
  let told := σ.setHeader page (u + (σ.headers page u).blockSize) fun header =>
    { header with previousSize := (σ.headers page u).blockSize }
  let marked := told.setHeader page u fun header => { header with poolType := 0, poolTag := tagOfFree }
  have here : marked.headers page u = { σ.headers page u with poolType := 0, poolTag := tagOfFree } := by
    rw [setHeader_self, setHeader_other _ _ _ _ (Or.inr (by omega))]
  have atNext : marked.headers page (u + (σ.headers page u).blockSize) =
      { σ.headers page (u + (σ.headers page u).blockSize) with previousSize := (σ.headers page u).blockSize } := by
    rw [setHeader_other _ _ _ _ (Or.inr (by omega)), setHeader_self]
  have elsewhere : ∀ p x, p ≠ page ∨ x ≠ u ∧ x ≠ u + (σ.headers page u).blockSize →
      marked.headers p x = σ.headers p x := fun p x apart => by
    rw [setHeader_other _ _ _ _ (apart.imp_right And.left),
      setHeader_other _ _ _ _ (apart.imp_right And.right)]
  have types : ∀ x, x ≠ u → (marked.headers page x).poolType = (σ.headers page x).poolType := fun x apart => by
    by_cases same : x = u + (σ.headers page u).blockSize
    · rw [same, atNext]
    · rw [elsewhere page x (Or.inr ⟨apart, same⟩)]
  have sizes : ∀ x, (marked.headers page x).blockSize = (σ.headers page x).blockSize := fun x => by
    by_cases same : x = u + (σ.headers page u).blockSize
    · rw [same, atNext]
    · by_cases same' : x = u
      · rw [same', here]
      · rw [elsewhere page x (Or.inr ⟨same', same⟩)]
  have freed : PageLaid (marked.headers page) (layout page) none :=
    whole.freed other atNext sizes (fun x apart => by
      by_cases same : x = u
      · rw [same, here]
      · rw [elsewhere page x (Or.inr ⟨same, apart⟩)]) types front behind
  have linked : Linked marked blocks := laid.linked.congr rfl rfl
  have released : σ.release page u = if (σ.headers page u).blockSize = 511 then
      some { marked with pages := marked.pages.erase page }
      else marked.ulpInsertHead (σ.headers page u).blockSize page u := by
    simp only [release]
    rw [if_pos (show u + (σ.headers page u).blockSize ≠ 512 by omega)]
  rw [released]
  by_cases all : (σ.headers page u).blockSize = 511
  · have only : ∀ x ∈ layout page, x = u ∨ x = 511 := fun x found => by
      by_cases same : x = u
      · exact Or.inl same
      · have apart := whole.tiled.disjoint found member same
        have inside := whole.inside found
        simp only [PageLaid.tagsBut_size] at apart
        omega
    have gone : ∀ {p}, p ∈ σ.pages.erase page ↔ p ≠ page ∧ p ∈ σ.pages := laid.nodup.mem_erase_iff
    have away : ∀ {j b}, b ∈ blocks j → b.1 ≠ page := fun {j b} found same => by
      obtain ⟨p, x⟩ := b
      dsimp only at same
      subst same
      have listed := laid.listed found
      have notHole := (laid.free.mp found).2.2.2.1
      rcases only x listed.2.1 with rfl | rfl
      · exact notHole rfl
      · omega
    rw [if_pos all, if_pos all]
    refine ⟨_, layout, blocks, rfl, ⟨laid.nodup.erase page, fun p found => ?_, ?_, fun {j b} => ?_,
      fun ℓ found => ?_, laid.once⟩, rfl, rfl⟩
    · obtain ⟨apart, old⟩ := gone.mp found
      have equal : marked.headers p = σ.headers p := funext fun x => elsewhere p x (Or.inl apart)
      have placed := laid.pages p old
      rw [holeIn_other apart] at placed
      exact equal.symm ▸ placed
    · refine ⟨linked.family, fun j b found => ⟨gone.mpr ⟨away found, ?_⟩, (laid.linked.known j b found).2⟩⟩
      exact (laid.linked.known j b found).1
    · constructor
      · intro found
        obtain ⟨old, inside, type, _, size⟩ := laid.free.mp found
        have apart := away found
        have same := elsewhere b.1 b.2 (Or.inl apart)
        exact ⟨gone.mpr ⟨apart, old⟩, inside, by rw [same]; exact type, (fun none => by cases none),
          by rw [same]; exact size⟩
      · rintro ⟨old, inside, type, _, size⟩
        obtain ⟨apart, old⟩ := gone.mp old
        have same := elsewhere b.1 b.2 (Or.inl apart)
        exact laid.free.mpr ⟨old, inside, same ▸ type, (fun equal => apart
          (congrArg Prod.fst (some.inj equal)).symm), same ▸ size⟩
    · have stands := laid.live ℓ found
      have apart : ℓ.page ≠ page := fun same => by
        rcases only ℓ.unit (same ▸ stands.unit) with unit | marker
        · exact stands.apart (by rw [same, unit])
        · exact stands.inside marker
      have same := elsewhere ℓ.page ℓ.unit (Or.inl apart)
      exact stands.keep (gone.mpr ⟨apart, stands.page⟩) stands.unit (by rw [same]) (by rw [same])
        fun none => by cases none
  · rw [if_neg all, if_neg all]
    have absent : ∀ j, (page, u) ∉ blocks j := fun j found => (laid.free.mp found).2.2.2.1 rfl
    obtain ⟨inserted, entered⟩ := linked.insertHead (i := (σ.headers page u).blockSize)
      (by omega) absent ⟨known, by omega⟩
    have grown : ∀ {j c}, c ∈ update blocks (σ.headers page u).blockSize
        ((page, u) :: blocks (σ.headers page u).blockSize) j ↔
        c ∈ blocks j ∨ (j = (σ.headers page u).blockSize ∧ c = (page, u)) := fun {j c} =>
      Linked.mem_entered fun c => mem_cons
    refine ⟨_, update layout page (layout page), _, inserted, laid.onPage rfl
      (fun p apart => funext fun x => elsewhere p x (Or.inl apart)) (fun p apart => ?_) freed entered known
      (fun j x => ?_) (fun j b apart => ?_) rfl fun ℓ found same => ?_, rfl, ?_⟩
    · rw [holeIn_other apart]
      rfl
    · rw [grown, laid.free, and_iff_right known]
      change _ ↔ x ∈ layout page ∧ (marked.headers page x).poolType = 0 ∧ _ ∧ (marked.headers page x).blockSize = j
      rw [sizes x]
      have pair : some (page, u) ≠ some (page, x) ↔ x ≠ u := by
        rw [Ne, some.injEq, Prod.mk.injEq, and_iff_right rfl]
        exact ne_comm
      have none_ne : none ≠ some (page, x) ↔ True := iff_true_intro fun none => by cases none
      rw [pair, none_ne]
      by_cases same : x = u
      · subst same
        have type : (marked.headers page x).poolType = 0 := by rw [here]
        simp only [type, member, ne_eq, not_true, false_and, and_false, false_or, and_true, true_and]
        exact eq_comm
      · rw [types x same]
        have notNew : (page, x) ≠ (page, u) := fun equal => same (Prod.mk.inj equal).2
        simp only [same, notNew, and_false, or_false, ne_eq, not_false_eq_true, true_and]
    · rw [grown]
      exact or_iff_left fun both => apart (congrArg Prod.fst both.2)
    · have stands := laid.live ℓ found
      have apart : ℓ.unit ≠ u := fun equal => stands.apart (by rw [same, equal])
      rw [update_eq_self]
      refine stands.keep stands.page stands.unit ?_ ?_ fun none => by cases none
      · rw [same]
        exact types _ apart
      · rw [same]
        exact sizes _
    · exact congrArg (· :: σ.placed) (sizes u)

/-- The header says that there is a free block in front. -/
def previousFree (σ : SmallPool Page) (page : Page) (u : Nat) : Prop :=
  (σ.headers page u).previousSize ≠ 0 ∧ (σ.headers page (u - (σ.headers page u).previousSize)).poolType = 0

instance (σ : SmallPool Page) (page : Page) (u : Nat) : Decidable (previousFree σ page u) :=
  inferInstanceAs (Decidable (_ ∧ _))

/-- What an operation on the hole leaves as it is, and where the hole is then. -/
structure Grown (σ τ : SmallPool Page) (layout' : Page → List Nat) (page : Page) (t : Nat) : Prop where
  pages : τ.pages = σ.pages
  live : τ.live = σ.live
  placed : τ.placed = σ.placed
  member : t ∈ layout' page
  inside : t ≠ 511
  front : ∀ x ∈ layout' page, t = x + (τ.headers page x).blockSize → (τ.headers page x).poolType ≠ 0

theorem absorbPrevious (laid : Laid σ layout blocks (some (page, u))) (known : page ∈ σ.pages)
    (member : u ∈ layout page) (other : u ≠ 511) :
    ∃ τ t layout' blocks', σ.absorbPrevious page u = some (τ, t) ∧ Laid τ layout' blocks' (some (page, t)) ∧
      Grown σ τ layout' page t ∧
      (τ.headers page t).blockSize = (if previousFree σ page u then
        (σ.headers page (u - (σ.headers page u).previousSize)).blockSize else 0) + (σ.headers page u).blockSize ∧
      t + (τ.headers page t).blockSize = u + (σ.headers page u).blockSize ∧
      τ.headers page (u + (σ.headers page u).blockSize) = σ.headers page (u + (σ.headers page u).blockSize) := by
  have whole := laid.page_hole known
  have filled := (whole.inside member).2
  have tiled := fun {x y : Nat} (left : x ∈ layout page) (right : y ∈ layout page) (apart : x ≠ y) => by
    have apart := whole.tiled.disjoint left right apart
    simpa only [PageLaid.tagsBut_size] using apart
  by_cases free : previousFree σ page u
  · obtain ⟨first, start⟩ | ⟨xs, t, rest, units, start, back, filled'⟩ := whole.previous member (whole.hole_apart member)
    · exact absurd first free.1
    · have before : u - (σ.headers page u).previousSize = t := by omega
      obtain ⟨_, type⟩ := free
      rw [before] at type
      have left : t ∈ layout page := by simp [units]
      have apart : t ≠ u := by omega
      have laid' : PageLaid (σ.headers page) ((xs ++ [t]) ++ u :: rest) (some u) := by
        rw [List.append_assoc, List.singleton_append, ← units]
        exact whole
      obtain ⟨ys, rfl⟩ := laid'.behind other
      have listed : (page, t) ∈ blocks (σ.headers page t).blockSize :=
        laid.free.mpr ⟨known, left, type, fun same => apart (Prod.mk.inj (Option.some.inj same)).2.symm, rfl⟩
      obtain ⟨front, back', split⟩ := List.append_of_mem listed
      have removed := laid.linked.removeEntry (laid.small listed) split
      have merged := laid.absorb known units (Or.inr ⟨rfl, rfl⟩) split
      have valid := laid.validHeader known left (by have := laid.listed listed; omega)
      have bound : (σ.headers page t).blockSize + (σ.headers page u).blockSize < 512 := by
        have next := whole.inside (u := u + (σ.headers page u).blockSize) (by simp [units])
        omega
      refine ⟨_, t, _, _, ?_, merged, ⟨rfl, rfl, rfl, ?_, ?_, fun x found ends => ?_⟩, ?_, ?_, ?_⟩
      · rw [SmallPool.absorbPrevious]
        simp only [before]
        rw [if_neg (fun either => either.elim (fun none => by omega) fun used => used type), if_pos valid, removed]
        rfl
      · rw [Function.update_self]
        simp
      · have := laid.listed listed
        omega
      · rw [Function.update_self] at found
        have distinct := whole.nodup
        rw [units] at distinct
        have old : x ∈ layout page := by
          rw [units]
          grind
        have notHole : x ≠ u := by grind
        by_cases same : x = t
        · subst same
          have grown := (merged.page_hole known).inside (u := x) (by rw [Function.update_self]; simp)
          omega
        · rw [SmallPool.setHeader_other _ _ _ _ (Or.inr same)] at ends ⊢
          intro type'
          refine whole.apart x old t left ends ⟨type', fun equal => notHole (Option.some.inj equal).symm⟩ ⟨type, ?_⟩
          exact fun equal => apart (Option.some.inj equal).symm
      · rw [SmallPool.setHeader_self, if_pos ⟨by omega, before ▸ type⟩, before]
        exact Nat.mod_eq_of_lt bound
      · rw [SmallPool.setHeader_self]
        simp only [Nat.mod_eq_of_lt bound]
        omega
      · exact SmallPool.setHeader_other _ _ _ _ (Or.inr (by omega))
  · refine ⟨σ, u, layout, blocks, ?_, laid, ⟨rfl, rfl, rfl, member, other, fun x found ends type => free ?_⟩, ?_, rfl, rfl⟩
    · rw [SmallPool.absorbPrevious]
      refine if_pos ?_
      rw [previousFree, not_and_or, not_not] at free
      exact free
    · obtain ⟨first, start⟩ | ⟨xs, t, rest, units, start, back, filled'⟩ :=
        whole.previous member (whole.hole_apart member)
      · have := (whole.inside found).2
        omega
      · have same : x = t := by
          by_contra differ
          have apart := tiled found (y := t) (by simp [units]) differ
          have := (whole.inside found).2
          omega
        subst same
        refine ⟨by omega, ?_⟩
        rw [back, show u - (σ.headers page x).blockSize = x by omega]
        exact type
    · rw [if_neg free, Nat.zero_add]

theorem absorbNext (laid : Laid σ layout blocks (some (page, u))) (known : page ∈ σ.pages)
    (member : u ∈ layout page) (other : u ≠ 511) (size : (σ.headers page u).blockSize = n)
    (front : ∀ x ∈ layout page, u = x + (σ.headers page x).blockSize → (σ.headers page x).poolType ≠ 0) :
    ∃ τ layout' blocks', σ.absorbNext page u = some τ ∧ Laid τ layout' blocks' (some (page, u)) ∧
      Grown σ τ layout' page u ∧
      (τ.headers page u).blockSize =
        n + (if (σ.headers page (u + n)).poolType = 0 then (σ.headers page (u + n)).blockSize else 0) ∧
      (τ.headers page (u + (τ.headers page u).blockSize)).poolType ≠ 0 := by
  subst size
  have whole := laid.page_hole known
  obtain ⟨xs, rest, units⟩ := whole.next member other
  have filled := (whole.inside member).2
  have right : u + (σ.headers page u).blockSize ∈ layout page := by simp [units]
  have behind := whole.inside right
  by_cases type : (σ.headers page (u + (σ.headers page u).blockSize)).poolType = 0
  · have notMarker : u + (σ.headers page u).blockSize ≠ 511 := fun same => by
      rw [same, whole.marker] at type
      exact absurd type (by decide)
    have laid' : PageLaid (σ.headers page) ((xs ++ [u]) ++ (u + (σ.headers page u).blockSize) :: rest) (some u) := by
      rw [append_assoc, singleton_append, ← units]
      exact whole
    obtain ⟨ys, rfl⟩ := laid'.behind notMarker
    have listed : (page, u + (σ.headers page u).blockSize) ∈
        blocks (σ.headers page (u + (σ.headers page u).blockSize)).blockSize :=
      laid.free.mpr ⟨known, right, type, fun same => by
        have := (Prod.mk.inj (some.inj same)).2
        omega, rfl⟩
    obtain ⟨front', back, split⟩ := append_of_mem listed
    have removed := laid.linked.removeEntry (laid.small listed) split
    have merged := laid.absorb known units (Or.inl ⟨rfl, rfl⟩) split
    have valid := laid.validHeader known right notMarker
    have position := laid.listed listed
    have bound : (σ.headers page u).blockSize + (σ.headers page (u + (σ.headers page u).blockSize)).blockSize < 512 := by
      omega
    refine ⟨_, _, _, ?_, merged, ⟨rfl, rfl, rfl, ?_, other, fun x found ends => ?_⟩, ?_, ?_⟩
    · rw [absorbNext, if_neg (fun either => either.elim (fun none => by omega) fun used => used type), if_pos valid, removed]
      rfl
    · rw [update_self]
      simp
    · rw [update_self] at found
      have old : x ∈ layout page := by
        rw [units]
        grind
      by_cases same : x = u
      · subst same
        have grown := (merged.page_hole known).inside (u := x) (by rw [update_self]; simp)
        omega
      · rw [setHeader_other _ _ _ _ (Or.inr same)] at ends ⊢
        exact front x old ends
    · rw [setHeader_self, if_pos type]
      exact Nat.mod_eq_of_lt bound
    · rw [setHeader_self]
      simp only [Nat.mod_eq_of_lt bound]
      rw [setHeader_other _ _ _ _ (Or.inr (by omega)), ← Nat.add_assoc]
      intro type'
      have last := (whole.next right notMarker)
      obtain ⟨_, _, split'⟩ := last
      have next : u + (σ.headers page u).blockSize + (σ.headers page (u + (σ.headers page u).blockSize)).blockSize ∈
          layout page := by simp [split']
      refine whole.apart _ right _ next rfl ⟨type, fun same => ?_⟩ ⟨type', fun same => ?_⟩
      · have := some.inj same
        omega
      · have := some.inj same
        omega
  · refine ⟨σ, layout, blocks, if_pos (Or.inr type), laid, ⟨rfl, rfl, rfl, member, other, front⟩, ?_, type⟩
    rw [if_neg type, Nat.add_zero]

/-- The units of the free block that a block in use becomes part of when it is freed. -/
def freedSize (σ : SmallPool Page) (page : Page) (u : Nat) : Nat :=
  let size := (σ.headers page u).blockSize
  (if previousFree σ page u then (σ.headers page (u - (σ.headers page u).previousSize)).blockSize else 0) + size +
    if (σ.headers page (u + size)).poolType = 0 then (σ.headers page (u + size)).blockSize else 0

/-- The tags that a block may be freed with. -/
def TagFits (σ : SmallPool Page) (page : Page) (offset : Nat) (tag : BitVec 32) : Prop :=
  (σ.headers page (offset / 8 - 1)).poolTag ≠ tagOfFree ∧
    (tag = 0 ∨ (σ.headers page (offset / 8 - 1)).poolTag = tag)

theorem freed (laid : Laid σ layout blocks none) {ℓ : LiveBlock Page} (live : ℓ ∈ σ.live) (tag : BitVec 32) :
    (¬ TagFits σ ℓ.page ℓ.offset tag ∧ σ.ulFreePoolWithTag ℓ.page ℓ.offset tag = none) ∨
    TagFits σ ℓ.page ℓ.offset tag ∧ ∃ τ layout' blocks', σ.ulFreePoolWithTag ℓ.page ℓ.offset tag = some τ ∧
      Laid τ layout' blocks' none ∧ (∀ k ∈ τ.live, k ∈ σ.live) ∧
      τ.placed = if freedSize σ ℓ.page ℓ.unit = 511 then σ.placed else freedSize σ ℓ.page ℓ.unit :: σ.placed := by
  have stands := laid.live ℓ live
  have some_ : ℓ.offset ≠ 0 := by
    have := stands.offset
    omega
  have aligned : ℓ.offset % 8 = 0 := by
    have := stands.offset
    omega
  have valid := laid.validHeader stands.page stands.unit stands.inside
  have check := laid.checkHeader stands.page stands.unit stands.inside
  have unit : ℓ.offset / 8 - 1 = ℓ.unit := rfl
  rw [SmallPool.ulFreePoolWithTag, if_neg some_]
  by_cases fits : TagFits σ ℓ.page ℓ.offset tag
  · refine Or.inr ?_
    refine ⟨fits, ?_⟩
    obtain ⟨notFree, tags⟩ := fits
    rw [if_pos ⟨aligned, stands.used, notFree, tags, valid, check⟩]
    simp only [unit]
    have opened := laid.giveUp live
    obtain ⟨τ, t, layout', blocks', stepped, merged, grown, size, ends, same⟩ :=
      opened.absorbPrevious stands.page stands.unit stands.inside
    obtain ⟨τ', layout'', blocks'', stepped', merged', grown', size', behind⟩ :=
      merged.absorbNext (grown.pages ▸ stands.page) grown.member grown.inside rfl grown.front
    obtain ⟨υ, layout''', blocks''', stepped'', laid', live', placed⟩ :=
      merged'.release (grown'.pages ▸ grown.pages ▸ stands.page) grown'.member grown'.inside rfl grown'.front behind
    refine ⟨υ, layout''', blocks''', ?_, laid', fun k member => ?_, ?_⟩
    · rw [stepped, Option.bind_some]
      dsimp only
      rw [stepped', Option.bind_some]
      exact stepped''
    · rw [live', grown'.live, grown.live] at member
      exact (List.mem_filter.mp member).1
    · have whole : (τ'.headers ℓ.page t).blockSize = freedSize σ ℓ.page ℓ.unit := by
        rw [size', ends, same, size]
        rfl
      rw [placed, whole, grown'.placed, grown.placed]
  · exact Or.inl ⟨fits, if_neg fun all => fits ⟨all.2.2.1, all.2.2.2.1⟩⟩

/-- A page of the allocator becomes one free block and the marker. -/
theorem expand (laid : Laid σ layout blocks none) (new : page ∉ σ.pages) :
    ∃ τ layout' blocks', σ.ulExpandPool page = some τ ∧ Laid τ layout' blocks' none ∧
      τ.pages = page :: σ.pages ∧ τ.live = σ.live ∧ τ.placed = 511 :: σ.placed := by
  let τ := ({ σ with pages := page :: σ.pages }.setHeader page 0 fun _ => ⟨0, 511, 0, tagOfFree⟩).setHeader page 511
    fun _ => ⟨511, 1, inUse, tagOfEnd⟩
  have first : τ.headers page 0 = ⟨0, 511, 0, tagOfFree⟩ := by
    rw [setHeader_other _ _ _ _ (Or.inr (by decide)), setHeader_self]
  have marker : τ.headers page 511 = ⟨511, 1, inUse, tagOfEnd⟩ := setHeader_self _ _ _ _
  have elsewhere : ∀ p x, p ≠ page → τ.headers p x = σ.headers p x := fun p x apart => by
    rw [setHeader_other _ _ _ _ (Or.inl apart), setHeader_other _ _ _ _ (Or.inl apart)]
  have fresh : PageLaid (τ.headers page) [0, 511] none := by
    refine ⟨?_, by rw [marker], fun u left v right next free free' => ?_⟩
    · simp only [tagsBut, tagsOf, Tiled, first, marker]
      decide
    · rcases mem_pair.mp right with rfl | rfl
      · rcases mem_pair.mp left with rfl | rfl
        · rw [first] at next
          cases next
        · rw [marker] at next
          cases next
      · exact absurd (free'.1.symm.trans (congrArg PoolHeader.poolType marker)) (by decide)
  have away : ∀ {j b}, b ∈ blocks j → b.1 ≠ page := fun found same =>
    new (same ▸ (laid.linked.known _ _ found).1)
  have linked : Linked τ blocks := ⟨laid.linked.family, fun j b found =>
    ⟨mem_cons_of_mem _ (laid.linked.known j b found).1, (laid.linked.known j b found).2⟩⟩
  obtain ⟨inserted, entered⟩ := linked.insertTail (i := 511) (by decide)
    (fun j (found : (page, 0) ∈ _) => away found rfl) ⟨mem_cons_self, by decide⟩
  have grown : ∀ {j c}, c ∈ update blocks 511 (blocks 511 ++ [(page, 0)]) j ↔
      c ∈ blocks j ∨ (j = 511 ∧ c = (page, 0)) := fun {j c} =>
    Linked.mem_entered fun c => by rw [mem_append, mem_singleton, or_comm]
  refine ⟨_, update layout page [0, 511], _, inserted,
    ⟨nodup_cons.mpr ⟨new, laid.nodup⟩, fun p member => ?_, entered, fun {j b} => ?_, fun ℓ member => ?_,
      laid.once⟩, rfl, rfl, ?_⟩
  · by_cases same : p = page
    · subst same
      rw [update_self]
      exact fresh
    · have old := laid.pages p ((mem_cons.mp member).resolve_left same)
      have equal : τ.headers p = σ.headers p := funext fun x => elsewhere p x same
      rw [update_of_ne same]
      exact equal.symm ▸ old
  · obtain ⟨p, x⟩ := b
    rw [grown]
    change _ ↔ p ∈ page :: σ.pages ∧ _ ∧ (τ.headers p x).poolType = 0 ∧ _ ∧ (τ.headers p x).blockSize = j
    by_cases same : p = page
    · subst same
      have absent : (p, x) ∉ blocks j := fun found => away found rfl
      rw [update_self]
      constructor
      · rintro (old | ⟨rfl, equal⟩)
        · exact absurd old absent
        · obtain rfl := (Prod.mk.inj equal).2
          exact ⟨mem_cons_self, mem_cons_self, by rw [first], (fun none => by cases none), by rw [first]⟩
      · rintro ⟨_, inside, type, _, size⟩
        rcases mem_pair.mp inside with rfl | rfl
        · rw [first] at size
          exact Or.inr ⟨size.symm, rfl⟩
        · rw [marker] at type
          exact absurd type (by decide)
    · have notNew : (p, x) ≠ (page, 0) := fun equal => same (Prod.mk.inj equal).1
      rw [update_of_ne same, elsewhere p x same, mem_cons, or_iff_right same, laid.free]
      exact or_iff_left fun both => notNew both.2
  · have stands := laid.live ℓ member
    have apart : ℓ.page ≠ page := fun same => new (same ▸ stands.page)
    have equal := elsewhere ℓ.page ℓ.unit apart
    refine stands.keep (mem_cons_of_mem _ stands.page) ?_ (by rw [← equal]; rfl) (by rw [← equal]; rfl) stands.apart
    rw [update_of_ne apart]
    exact stands.unit
  · exact congrArg (· :: σ.placed) (congrArg PoolHeader.blockSize first)

/-- Whatever is put on a list has two units or more. -/
def Adds (σ τ : SmallPool Page) : Prop := ∃ more, τ.placed = more ++ σ.placed ∧ ∀ k ∈ more, 2 ≤ k

omit [DecidableEq Page] in
theorem Adds.refl (σ : SmallPool Page) : Adds σ σ := ⟨[], rfl, fun _ none => absurd none not_mem_nil⟩

omit [DecidableEq Page] in
theorem Adds.trans {υ : SmallPool Page} (first : Adds σ τ) (second : Adds τ υ) : Adds σ υ := by
  obtain ⟨more, placed, all⟩ := first
  obtain ⟨more', placed', all'⟩ := second
  refine ⟨more' ++ more, by rw [placed', placed, append_assoc], fun k found => ?_⟩
  exact (mem_append.mp found).elim (all' k) (all k)

theorem takeBlock (laid : Laid σ layout blocks none) (tag : BitVec 32) (filled : 0 < n) :
    σ.takeBlock n tag = some (σ, none) ∨
    ∃ τ page u layout' blocks',
      σ.takeBlock n tag = some (τ.setHeader page u fun header => { header with poolType := inUse, poolTag := tag },
        some (page, u)) ∧
      Laid τ layout' blocks' (some (page, u)) ∧ page ∈ τ.pages ∧ u ∈ layout' page ∧ u ≠ 511 ∧
      (τ.headers page (u + (τ.headers page u).blockSize)).previousSize = (τ.headers page u).blockSize ∧
      n ≤ (τ.headers page u).blockSize ∧ τ.live = σ.live ∧ Adds σ τ := by
  rw [SmallPool.takeBlock]
  cases fit : σ.firstFit n with
  | none => exact Or.inl rfl
  | some i =>
    obtain ⟨low, high, ⟨page, u⟩, back, list⟩ := laid.linked.firstFit_some fit
    have member : (page, u) ∈ blocks i := by simp [list]
    obtain ⟨known, inside, below, type, size, positive, bound⟩ := laid.listed member
    have whole := laid.pages page known
    rw [holeIn_none] at whole
    have removed := laid.linked.removeHead high list
    have split : blocks i = [] ++ (page, u) :: back := list
    have taken := laid.take split
    have valid := laid.validHeader known inside (by omega)
    have check := laid.checkHeader known inside (by omega)
    have used : (σ.headers page (u + i)).poolType ≠ 0 := fun free => by
      obtain ⟨_, _, units⟩ := whole.next inside (by omega)
      refine whole.apart u inside (u + i) (by rw [units, size]; simp) (by rw [size]) ⟨type, ?_⟩ ⟨free, ?_⟩
      · exact fun none => by cases none
      · exact fun none => by cases none
    refine Or.inr ?_
    simp only [removed, Option.bind_some]
    rw [if_pos ⟨valid, check⟩]
    by_cases cut : n + 1 < i
    · obtain ⟨layout', blocks', stepped, divided, here⟩ := taken.splitBlock known inside (by omega) size used filled
        (show n < i by omega)
      have first := SmallPool.cut_first (σ := { σ with links := σ.links.unlinkEntry (linkOf (page, u)) })
        (p := page) (u := u) filled (show n < i by omega)
      have second := SmallPool.cut_second (σ := { σ with links := σ.links.unlinkEntry (linkOf (page, u)) })
        (p := page) (u := u) filled (show n < i by omega)
      have sizes : ((SmallPool.cut { σ with links := σ.links.unlinkEntry (linkOf (page, u)) } page u n i).headers
          page u).blockSize = n := by rw [first]
      refine ⟨_, page, u, layout', blocks', ?_, divided, known, here, by omega, ?_, Nat.le_of_eq sizes.symm, rfl,
        [i - n], ?_, fun k found => ?_⟩
      · rw [if_pos (by rw [size]; exact cut), stepped]
        rfl
      · change ((SmallPool.cut _ page u n i).headers page
          (u + ((SmallPool.cut _ page u n i).headers page u).blockSize)).previousSize =
          ((SmallPool.cut _ page u n i).headers page u).blockSize
        rw [sizes, second]
      · exact congrArg (· :: σ.placed) (congrArg PoolHeader.blockSize second)
      · rw [List.mem_singleton.mp found]
        omega
    · refine ⟨_, page, u, layout, _, ?_, taken, known, inside, by omega, ?_, ?_, rfl, Adds.refl _⟩
      · rw [if_neg (by rw [size]; exact cut)]
        rfl
      · exact whole.settled_of_none inside (by omega)
      · rw [size]
        exact low

theorem retryAllocation {supply : List Page} (laid : Laid σ layout blocks none) (tag : BitVec 32) (filled : 0 < n)
    (distinct : supply.Nodup) (fresh : ∀ page ∈ supply, page ∉ σ.pages) :
    (∃ τ layout' blocks', σ.retryAllocation n tag supply = some (τ, none) ∧ Laid τ layout' blocks' none ∧
      τ.live = σ.live ∧ Adds σ τ) ∨
    ∃ τ page u layout' blocks',
      σ.retryAllocation n tag supply =
        some (τ.setHeader page u fun header => { header with poolType := inUse, poolTag := tag }, some (page, u)) ∧
      Laid τ layout' blocks' (some (page, u)) ∧ page ∈ τ.pages ∧ u ∈ layout' page ∧ u ≠ 511 ∧
      (τ.headers page (u + (τ.headers page u).blockSize)).previousSize = (τ.headers page u).blockSize ∧
      n ≤ (τ.headers page u).blockSize ∧ τ.live = σ.live ∧ Adds σ τ := by
  induction supply generalizing σ layout blocks with
  | nil =>
    rw [retryAllocation]
    exact (laid.takeBlock tag filled).imp (fun stepped => ⟨σ, layout, blocks, stepped, laid, rfl, Adds.refl σ⟩) id
  | cons newPage supply ih =>
    rw [retryAllocation]
    rcases laid.takeBlock tag filled with stepped | ⟨τ, page, u, layout', blocks', stepped, rest⟩
    · have new := fresh newPage mem_cons_self
      obtain ⟨τ, layout', blocks', expanded, laid', pages, live, placed⟩ := laid.expand new
      have adds : Adds σ τ := ⟨[511], placed, fun k found => by
        rw [mem_singleton.mp found]
        decide⟩
      obtain ⟨notIn, distinct⟩ := nodup_cons.mp distinct
      have later := ih laid' distinct fun page member => by
        rw [pages, mem_cons, not_or]
        exact ⟨fun same => notIn (same ▸ member), fresh page (mem_cons_of_mem _ member)⟩
      rw [stepped, bind_some]
      simp only [expanded, bind_some]
      rcases later with ⟨υ, layout'', blocks'', found, laid'', live', adds'⟩ |
        ⟨υ, page, u, layout'', blocks'', found, laid'', known, member, other, settled, room, live', adds'⟩
      · exact Or.inl ⟨υ, layout'', blocks'', found, laid'', live'.trans live, adds.trans adds'⟩
      · exact Or.inr ⟨υ, page, u, layout'', blocks'', found, laid'', known, member, other, settled, room,
          live'.trans live, adds.trans adds'⟩
    · rw [stepped, bind_some]
      exact Or.inr ⟨τ, page, u, layout', blocks', rfl, rest⟩

end Laid
end VeaOS.Mm
