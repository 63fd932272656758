import VeaOS.Mm.SmallPool

/-! One page of the pool: its headers tile it, no two free blocks are neighbours,
and the marker at its end is in use. While a block is taken off its list, split,
merged or freed it is a hole, which counts as neither free nor in use, and the
block behind it may not know its size yet. -/
namespace VeaOS.Mm
open Foundation BoundaryTags Function

def tagsOf (h : Nat → PoolHeader) : BoundaryTags := ⟨fun u => (h u).blockSize, fun u => (h u).previousSize⟩

def tagsBut (h : Nat → PoolHeader) : Option Nat → BoundaryTags
  | none => tagsOf h
  | some u => ⟨(tagsOf h).size, Function.update (tagsOf h).before (u + (h u).blockSize) (h u).blockSize⟩

def IsFree (h : Nat → PoolHeader) (hole : Option Nat) (u : Nat) : Prop := (h u).poolType = 0 ∧ hole ≠ some u

structure PageLaid (h : Nat → PoolHeader) (units : List Nat) (hole : Option Nat) : Prop where
  tiled : (tagsBut h hole).Tiled (0, 0) units (512, 1)
  marker : (h 511).poolType = inUse
  apart : ∀ u ∈ units, ∀ v ∈ units, v = u + (h u).blockSize → IsFree h hole u → ¬ IsFree h hole v

namespace PageLaid
variable {h : Nat → PoolHeader} {units xs ys : List Nat} {hole : Option Nat} {t u v w m : Nat}

@[simp] theorem tagsBut_size (h : Nat → PoolHeader) (hole : Option Nat) (u : Nat) :
    (tagsBut h hole).size u = (h u).blockSize := by
  cases hole <;> rfl

theorem tagsBut_before (other : ∀ u, hole = some u → v ≠ u + (h u).blockSize) :
    (tagsBut h hole).before v = (h v).previousSize := by
  cases hole with
  | none => rfl
  | some u => exact update_of_ne (other u rfl) _ _

theorem tagsBut_behind (h : Nat → PoolHeader) (u : Nat) :
    (tagsBut h (some u)).before (u + (h u).blockSize) = (h u).blockSize := update_self _ _ _

theorem tagsBut_apart (other : v ≠ u + (h u).blockSize) :
    (tagsBut h (some u)).before v = (h v).previousSize := update_of_ne other _ _

theorem inside (laid : PageLaid h units hole) (member : u ∈ units) :
    u + (h u).blockSize ≤ 512 ∧ 0 < (h u).blockSize := by
  have bounds := (laid.tiled.inside.2 u member).2
  rwa [tagsBut_size] at bounds

theorem ends (laid : PageLaid h units hole) : ∃ init, units = init ++ [511] ∧ (h 511).blockSize = 1 := by
  obtain ⟨init, u, split, last, size⟩ := laid.tiled.last (by decide)
  rw [tagsBut_size] at last size
  obtain rfl : u = 511 := by omega
  exact ⟨init, split, size⟩

theorem behind (laid : PageLaid h (xs ++ u :: ys) hole) (other : u ≠ 511) :
    ∃ zs, ys = (u + (h u).blockSize) :: zs := by
  cases ys with
  | nil =>
    obtain ⟨init, split, _⟩ := laid.ends
    exact absurd (List.append_inj_right' split rfl) (by simpa using other)
  | cons w zs =>
    obtain ⟨_, _, _, _, same, _⟩ := tiled_next.mp laid.tiled
    rw [tagsBut_size] at same
    exact ⟨zs, by rw [same]⟩

theorem next (laid : PageLaid h units hole) (member : u ∈ units) (other : u ≠ 511) :
    ∃ xs ys, units = xs ++ u :: (u + (h u).blockSize) :: ys := by
  obtain ⟨xs, rest, rfl⟩ := List.append_of_mem member
  obtain ⟨ys, rfl⟩ := laid.behind other
  exact ⟨xs, ys, rfl⟩

theorem previous (laid : PageLaid h units hole) (member : u ∈ units)
    (other : ∀ t, hole = some t → u ≠ t + (h t).blockSize) :
    ((h u).previousSize = 0 ∧ u = 0) ∨
    ∃ xs t ys, units = xs ++ t :: u :: ys ∧ u = t + (h t).blockSize ∧
      (h u).previousSize = (h t).blockSize ∧ 0 < (h t).blockSize := by
  obtain ⟨before, rest, rfl⟩ := List.append_of_mem member
  have tags := tagsBut_before other
  rcases List.eq_nil_or_concat before with rfl | ⟨xs, t, rfl⟩
  · obtain ⟨start, same, _⟩ := laid.tiled.1
    exact Or.inl ⟨tags.symm.trans same, start⟩
  · rw [List.concat_eq_append, List.append_assoc] at laid ⊢
    obtain ⟨_, _, _, filled, start, same, _⟩ := tiled_next.mp laid.tiled
    rw [tagsBut_size] at start same filled
    exact Or.inr ⟨xs, t, rest, rfl, start, tags.symm.trans same, filled⟩

theorem hole_apart (laid : PageLaid h units (some u)) (member : u ∈ units) :
    ∀ t, some u = some t → u ≠ t + (h t).blockSize := by
  rintro t ⟨⟩ same
  have filled := (laid.inside member).2
  omega

theorem settled_of_none (laid : PageLaid h units none) (member : u ∈ units) (other : u ≠ 511) :
    (h (u + (h u).blockSize)).previousSize = (h u).blockSize := by
  obtain ⟨xs, ys, rfl⟩ := laid.next member other
  obtain ⟨_, _, _, _, _, same, _⟩ := tiled_next.mp laid.tiled
  exact same

theorem opened (laid : PageLaid h units none) (member : u ∈ units) (other : u ≠ 511) :
    PageLaid h units (some u) where
  tiled := laid.tiled.congr fun v _ => by
    refine ⟨rfl, ?_⟩
    by_cases same : v = u + (h u).blockSize
    · subst same
      exact (tagsBut_behind h u).trans (laid.settled_of_none member other).symm
    · exact tagsBut_apart same
  marker := laid.marker
  apart := fun v left w right next free free' =>
    laid.apart v left w right next ⟨free.1, by simp⟩ ⟨free'.1, by simp⟩

theorem nodup (laid : PageLaid h units hole) : units.Nodup := laid.tiled.nodup

section Updates
variable {h' : Nat → PoolHeader}

/-- The hole is cut into two blocks, the second of which is free. -/
theorem split (laid : PageLaid h (xs ++ u :: w :: ys) (some u)) (filled : 0 < m) (less : m < (h u).blockSize)
    (used : (h w).poolType ≠ 0) (first : h' u = { h u with blockSize := m })
    (second : h' (u + m) =
      { h (u + m) with previousSize := m, blockSize := (h u).blockSize - m, poolType := 0 })
    (third : h' w = { h w with previousSize := (h u).blockSize - m })
    (others : ∀ x, x ≠ u → x ≠ u + m → x ≠ w → h' x = h x) :
    PageLaid h' (xs ++ u :: (u + m) :: w :: ys) (some u) := by
  have start : w = u + (h u).blockSize := by
    obtain ⟨_, _, _, _, same, _⟩ := tiled_next.mp laid.tiled
    rwa [tagsBut_size] at same
  have left : u ∈ xs ++ u :: w :: ys := by simp
  have old : ∀ x ∈ xs ++ u :: (u + m) :: w :: ys, x ≠ u + m → x ∈ xs ++ u :: w :: ys := fun x member other => by
    grind
  have size : ∀ x, x ≠ u → x ≠ u + m → (h' x).blockSize = (h x).blockSize := fun x notFirst notSecond => by
    by_cases same : x = w
    · rw [same, third]
    · rw [others x notFirst notSecond same]
  have type : ∀ x, x ≠ u + m → (h' x).poolType = (h x).poolType := fun x notSecond => by
    by_cases same : x = w
    · rw [same, third]
    · by_cases same' : x = u
      · rw [same', first]
      · rw [others x same' notSecond same]
  refine ⟨?_, ?_, fun a la b lb next free free' => ?_⟩
  · refine (laid.tiled.split filled (by rwa [tagsBut_size])).congr fun x member => ?_
    simp only [tagsBut_size]
    constructor
    · by_cases second' : x = u + m
      · rw [second', second, update_self]
      · by_cases first' : x = u
        · rw [first', first, update_of_ne (by omega), update_self]
        · rw [update_of_ne second', update_of_ne first', size x first' second', tagsBut_size]
    · simp only [tagsBut, tagsOf, first]
      by_cases third' : x = w
      · rw [third', update_self, update_of_ne (by omega)]
        exact congrArg PoolHeader.previousSize third
      · rw [update_of_ne third']
        by_cases second' : x = u + m
        · rw [second', update_self, update_self]
        · rw [update_of_ne second', update_of_ne second',
            update_of_ne (show x ≠ u + (h u).blockSize by omega)]
          by_cases first' : x = u
          · rw [first', first]
          · rw [others x first' second' third']
  · have inside := laid.inside (u := w) (by simp)
    rw [type 511 (by omega)]
    exact laid.marker
  · have notHole : a ≠ u := fun same => free.2 (by rw [same])
    have notHole' : b ≠ u := fun same => free'.2 (by rw [same])
    by_cases second' : a = u + m
    · have behind : b = w := by
        rw [next, second', second]
        dsimp only
        omega
      rw [behind] at free'
      exact used ((type w (by omega)).symm.trans free'.1)
    · rw [size a notHole second'] at next
      have member := old a la second'
      have apart := laid.tiled.disjoint member left notHole
      have inside := (laid.inside member).2
      simp only [tagsBut_size] at apart
      have second'' : b ≠ u + m := by omega
      exact laid.apart a member b (old b lb second'') next ⟨(type a second').symm.trans free.1, free.2⟩
        ⟨(type b second'').symm.trans free'.1, free'.2⟩

theorem merge (laid : PageLaid h (xs ++ t :: u :: w :: ys) hole) (either : hole = some t ∨ hole = some u)
    (first : h' t = { h t with blockSize := (h t).blockSize + (h u).blockSize })
    (others : ∀ x, x ≠ t → h' x = h x) : PageLaid h' (xs ++ t :: w :: ys) (some t) := by
  obtain ⟨_, front, _, filled, next, _, filled', ⟨next', _, _⟩, rest⟩ := tiled_next.mp laid.tiled
  simp only [tagsBut_size] at next next' filled filled' rest
  have apart : ∀ x ∈ xs ++ t :: w :: ys, x ≠ u := fun x member same => by
    have distinct := laid.nodup
    grind
  have behind : t + (h' t).blockSize = w := by
    rw [first]
    dsimp only
    omega
  refine ⟨laid.tiled.merge.congr fun x member => ?_, ?_, fun a la b lb next'' free free' => ?_⟩
  · simp only [tagsBut_size]
    constructor
    · by_cases first' : x = t
      · rw [first', first, update_self]
      · rw [others x first', update_of_ne first', tagsBut_size]
    · by_cases third' : x = w
      · subst third'
        have after := tagsBut_behind h' t
        rw [behind] at after
        rw [after, first, update_self]
      · have notHole : ∀ v, hole = some v → x ≠ v + (h v).blockSize := fun v same => by
          rcases either with rfl | rfl
          · obtain rfl := Option.some.inj same
            exact next ▸ apart x member
          · obtain rfl := Option.some.inj same
            exact next' ▸ third'
        rw [update_of_ne third', tagsBut_before notHole, tagsBut_before]
        · by_cases first' : x = t
          · rw [first', first]
          · rw [others x first']
        · rintro v ⟨⟩
          exact behind.symm ▸ third'
  · have below : t < 511 := by
      have inside := laid.inside (u := u) (by simp)
      omega
    rw [others 511 (by omega)]
    exact laid.marker
  · have notHole : a ≠ t := fun same => free.2 (by rw [same])
    have notHole' : b ≠ t := fun same => free'.2 (by rw [same])
    have old : ∀ x ∈ xs ++ t :: w :: ys, IsFree h' (some t) x → x ≠ t → x ∈ xs ++ t :: u :: w :: ys ∧ IsFree h hole x :=
      fun x member free notHole => by
        refine ⟨by grind, (congrArg PoolHeader.poolType (others x notHole)).symm.trans free.1, fun same => ?_⟩
        rcases either with rfl | rfl
        · exact notHole (Option.some.inj same).symm
        · exact apart x member (Option.some.inj same).symm
    rw [others a notHole] at next''
    have left := old a la free notHole
    have right := old b lb free' notHole'
    exact laid.apart a left.1 b right.1 next'' left.2 right.2

theorem used (laid : PageLaid h units (some u))
    (settled : (h (u + (h u).blockSize)).previousSize = (h u).blockSize) (type : (h' u).poolType ≠ 0)
    (marker : (h' 511).poolType = inUse)
    (sizes : ∀ x, (h' x).blockSize = (h x).blockSize ∧ (h' x).previousSize = (h x).previousSize)
    (types : ∀ x, x ≠ u → (h' x).poolType = (h x).poolType) : PageLaid h' units none where
  tiled := laid.tiled.congr fun x _ => by
    refine ⟨by rw [tagsBut_size, tagsBut_size, (sizes x).1], ((sizes x).2).trans ?_⟩
    by_cases same : x = u + (h u).blockSize
    · subst same
      exact settled.trans (tagsBut_behind h u).symm
    · exact (tagsBut_apart same).symm
  marker := marker
  apart := fun a la b lb next free free' => by
    rw [(sizes a).1] at next
    have notHole : ∀ {x}, IsFree h' none x → x ≠ u := fun free same => type (same ▸ free.1)
    have old : ∀ {x}, IsFree h' none x → IsFree h (some u) x := fun free =>
      ⟨(types _ (notHole free)).symm.trans free.1, fun same => notHole free (Option.some.inj same).symm⟩
    exact laid.apart a la b lb next (old free) (old free')

theorem freed (laid : PageLaid h units (some u)) (other : u ≠ 511)
    (next : h' (u + (h u).blockSize) = { h (u + (h u).blockSize) with previousSize := (h u).blockSize })
    (sizes : ∀ x, (h' x).blockSize = (h x).blockSize)
    (before : ∀ x, x ≠ u + (h u).blockSize → (h' x).previousSize = (h x).previousSize)
    (types : ∀ x, x ≠ u → (h' x).poolType = (h x).poolType)
    (front : ∀ t ∈ units, u = t + (h t).blockSize → (h t).poolType ≠ 0)
    (behind : (h (u + (h u).blockSize)).poolType ≠ 0) : PageLaid h' units none where
  tiled := laid.tiled.congr fun x _ => by
    refine ⟨by rw [tagsBut_size, tagsBut_size, sizes x], ?_⟩
    by_cases same : x = u + (h u).blockSize
    · subst same
      exact (congrArg PoolHeader.previousSize next).trans (tagsBut_behind h u).symm
    · exact (before x same).trans (tagsBut_apart same).symm
  marker := (types 511 (Ne.symm other)).trans laid.marker
  apart := fun a la b lb next' free free' => by
    rw [sizes a] at next'
    have old : ∀ {x}, IsFree h' none x → x ≠ u → IsFree h (some u) x := fun free notHole =>
      ⟨(types _ notHole).symm.trans free.1, fun same => notHole (Option.some.inj same).symm⟩
    by_cases first : a = u
    · rw [first] at next'
      subst next'
      by_cases same : u + (h u).blockSize = u
      · have filled := (laid.inside (u := u) (first ▸ la)).2
        omega
      · exact behind ((types _ same).symm.trans free'.1)
    · by_cases second : b = u
      · exact front a la (second ▸ next') ((types a first).symm.trans free.1)
      · exact laid.apart a la b lb next' (old free first) (old free' second)

end Updates
end PageLaid
end VeaOS.Mm
