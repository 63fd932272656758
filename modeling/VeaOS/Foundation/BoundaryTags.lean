import Mathlib.Data.List.Basic
import Mathlib.Data.List.Pairwise

/-! Blocks laid end to end in a row of units. A tag at the first unit of each
block holds its size and the size of the block before it. -/
namespace VeaOS.Foundation

open Function

structure BoundaryTags where
  size : Nat → Nat
  before : Nat → Nat

namespace BoundaryTags

/-- The blocks at `units` follow each other from a unit, which a block of a
certain size ends before, to another. -/
def Tiled (T : BoundaryTags) (a : Nat × Nat) : List Nat → Nat × Nat → Prop
  | [], b => a = b
  | u :: us, b => (u = a.1 ∧ T.before u = a.2 ∧ 0 < T.size u) ∧ Tiled T (u + T.size u, T.size u) us b

variable {T T' : BoundaryTags} {a b c : Nat × Nat} {xs ys us : List Nat} {t u v w m : Nat}

theorem tiled_append : ∀ {a : Nat × Nat} {xs : List Nat},
    Tiled T a (xs ++ ys) c ↔ ∃ b, Tiled T a xs b ∧ Tiled T b ys c
  | a, [] => by simp only [List.nil_append, Tiled, exists_eq_left']
  | a, x :: xs => by
      simp only [List.cons_append, Tiled, tiled_append, and_assoc, exists_and_left]

theorem Tiled.inside : ∀ {a : Nat × Nat} {us : List Nat}, Tiled T a us b →
    a.1 ≤ b.1 ∧ ∀ u ∈ us, a.1 ≤ u ∧ u + T.size u ≤ b.1 ∧ 0 < T.size u
  | a, [], tiled => by
      cases tiled
      exact ⟨Nat.le_refl _, fun u none => absurd none List.not_mem_nil⟩
  | a, u :: us, ⟨⟨start, _, filled⟩, tiled⟩ => by
      obtain ⟨reach, rest⟩ := Tiled.inside tiled
      dsimp only at reach rest
      refine ⟨by omega, fun v member => ?_⟩
      rcases List.mem_cons.mp member with rfl | later
      · exact ⟨by omega, reach, filled⟩
      · have bounds := rest v later
        exact ⟨by omega, bounds.2⟩

theorem Tiled.congr : ∀ {a : Nat × Nat} {us : List Nat}, Tiled T a us b →
    (∀ u ∈ us, T'.size u = T.size u ∧ T'.before u = T.before u) → Tiled T' a us b
  | _, [], tiled, _ => tiled
  | _, u :: us, ⟨⟨start, before, filled⟩, tiled⟩, same => by
      obtain ⟨size, before'⟩ := same u List.mem_cons_self
      refine ⟨⟨start, before'.trans before, size ▸ filled⟩, ?_⟩
      rw [size]
      exact tiled.congr fun v member => same v (List.mem_cons_of_mem u member)

theorem Tiled.ordered : ∀ {a : Nat × Nat} {us : List Nat}, Tiled T a us b →
    us.Pairwise fun u v => u + T.size u ≤ v
  | _, [], _ => List.Pairwise.nil
  | _, _ :: _, ⟨_, tiled⟩ =>
    List.Pairwise.cons (fun v member => (tiled.inside.2 v member).1) tiled.ordered

theorem Tiled.nodup (tiled : Tiled T a us b) : us.Nodup := by
  refine (List.Pairwise.and_mem.mp tiled.ordered).imp fun {u v} both same => ?_
  have filled := (tiled.inside.2 u both.1).2.2
  omega

theorem Tiled.disjoint (tiled : Tiled T a us b) (left : u ∈ us) (right : v ∈ us) (other : u ≠ v) :
    u + T.size u ≤ v ∨ v + T.size v ≤ u := by
  have symmetric : Std.Symm fun u v => u + T.size u ≤ v ∨ v + T.size v ≤ u := ⟨fun _ _ => Or.symm⟩
  have either : us.Pairwise fun u v => u + T.size u ≤ v ∨ v + T.size v ≤ u := tiled.ordered.imp Or.inl
  exact either.forall left right other

theorem Tiled.last (tiled : Tiled T a us b) (other : a ≠ b) :
    ∃ init u, us = init ++ [u] ∧ u + T.size u = b.1 ∧ T.size u = b.2 := by
  rcases List.eq_nil_or_concat us with rfl | ⟨init, u, rfl⟩
  · exact absurd tiled other
  · rw [List.concat_eq_append] at tiled ⊢
    obtain ⟨c, _, ⟨_, ends⟩⟩ := tiled_append.mp tiled
    refine ⟨init, u, rfl, ?_⟩
    rw [← ends]
    exact ⟨rfl, rfl⟩

theorem tiled_next : Tiled T a (xs ++ u :: v :: ys) c ↔
    ∃ before, Tiled T a xs (u, before) ∧ T.before u = before ∧ 0 < T.size u ∧
      v = u + T.size u ∧ T.before v = T.size u ∧ 0 < T.size v ∧ Tiled T (v + T.size v, T.size v) ys c := by
  rw [tiled_append]
  constructor
  · rintro ⟨⟨start, before⟩, front, ⟨rfl, same, filled⟩, ⟨next, back, filled'⟩, rest⟩
    exact ⟨before, front, same, filled, next, back, filled', rest⟩
  · rintro ⟨before, front, same, filled, next, back, filled', rest⟩
    exact ⟨(u, before), front, ⟨rfl, same, filled⟩, ⟨next, back, filled'⟩, rest⟩

theorem Tiled.split (tiled : Tiled T a (xs ++ u :: w :: ys) c) (filled : 0 < m) (less : m < T.size u) :
    Tiled ⟨update (update T.size u m) (u + m) (T.size u - m),
      update (update T.before (u + m) m) w (T.size u - m)⟩ a (xs ++ u :: (u + m) :: w :: ys) c := by
  obtain ⟨before, front, same, _, next, _, filled', rest⟩ := tiled_next.mp tiled
  have first : ∀ x ∈ xs, x < u := fun x member => by
    have bounds := front.inside.2 x member
    omega
  have later : ∀ y ∈ ys, w < y := fun y member => by
    have bounds := rest.inside.2 y member
    dsimp only at bounds
    omega
  rw [tiled_append]
  refine ⟨(u, before), front.congr fun x member => ?_, ?_⟩
  · have below := first x member
    exact ⟨(update_of_ne (by omega) _ _).trans (update_of_ne (by omega) _ _),
      (update_of_ne (by omega) _ _).trans (update_of_ne (by omega) _ _)⟩
  · simp only [Tiled]
    rw [update_of_ne (show u ≠ w by omega), update_of_ne (show u ≠ u + m by omega),
      update_of_ne (show u ≠ u + m by omega), update_self, update_of_ne (show u + m ≠ w by omega),
      update_self, update_self, update_self, update_of_ne (show w ≠ u + m by omega),
      update_of_ne (show w ≠ u by omega)]
    refine ⟨⟨trivial, same, filled⟩, ⟨rfl, rfl, by omega⟩, ⟨by omega, rfl, filled'⟩, rest.congr fun y member => ?_⟩
    have above := later y member
    exact ⟨(update_of_ne (by omega) _ _).trans (update_of_ne (by omega) _ _),
      (update_of_ne (by omega) _ _).trans (update_of_ne (by omega) _ _)⟩

theorem Tiled.merge (tiled : Tiled T a (xs ++ u :: v :: w :: ys) c) :
    Tiled ⟨update T.size u (T.size u + T.size v),
      update T.before w (T.size u + T.size v)⟩ a (xs ++ u :: w :: ys) c := by
  obtain ⟨before, front, same, filled, next, _, filled', ⟨next', _, filled''⟩, rest⟩ := tiled_next.mp tiled
  dsimp only at next' rest
  have first : ∀ x ∈ xs, x < u := fun x member => by
    have bounds := front.inside.2 x member
    omega
  have later : ∀ y ∈ ys, w < y := fun y member => by
    have bounds := rest.inside.2 y member
    dsimp only at bounds
    omega
  rw [tiled_append]
  refine ⟨(u, before), front.congr fun x member => ?_, ?_⟩
  · have below := first x member
    exact ⟨update_of_ne (by omega) _ _, update_of_ne (by omega) _ _⟩
  · simp only [Tiled]
    rw [update_of_ne (show u ≠ w by omega), update_self, update_self,
      update_of_ne (show w ≠ u by omega)]
    refine ⟨⟨trivial, same, by omega⟩, ⟨by omega, rfl, filled''⟩, rest.congr fun y member => ?_⟩
    have above := later y member
    exact ⟨update_of_ne (by omega) _ _, update_of_ne (by omega) _ _⟩

end BoundaryTags
end VeaOS.Foundation
