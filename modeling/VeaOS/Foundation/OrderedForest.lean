import Mathlib.Data.List.Flatten
import Mathlib.Data.List.Nodup
import Mathlib.Data.List.Pairwise
import Mathlib.Data.List.Perm.Subperm

/-! Forests whose nodes are numbered parents first, and their preorder. A walk in
preorder stands at a position between what it has listed and what is ahead. -/
namespace VeaOS.Forest
open Relation

/-- Every node has one parent, which comes before it, and nodes end at a bound. -/
structure Ordered (children : Nat → List Nat) (bound : Nat) : Prop where
  later : ∀ p c, c ∈ children p → p < c
  below : ∀ p c, c ∈ children p → c < bound
  once : ∀ p, (children p).Nodup
  single : ∀ p q c, c ∈ children p → c ∈ children q → p = q

def Descends (children : Nat → List Nat) : Nat → Nat → Prop := ReflTransGen fun p c => c ∈ children p

def preorderWithin (children : Nat → List Nat) : Nat → Nat → List Nat
  | 0, p => [p]
  | fuel + 1, p => p :: (children p).flatMap (preorderWithin children fuel)

def preorder (children : Nat → List Nat) (bound p : Nat) : List Nat := preorderWithin children (bound - p) p

section Preorder
variable {children children' : Nat → List Nat} {bound : Nat}

namespace Ordered

section
variable (ordered : Ordered children bound)
include ordered

theorem mono (more : bound ≤ bound') : Ordered children bound' :=
  { ordered with below := fun p c member => Nat.lt_of_lt_of_le (ordered.below p c member) more }

theorem descends_le (descends : Descends children p x) : p ≤ x := by
  induction descends with
  | refl => exact Nat.le_refl p
  | tail _ last ih => exact Nat.le_trans ih (Nat.le_of_lt (ordered.later _ _ last))

theorem leaf (last : bound ≤ p + 1) : children p = [] := by
  refine List.eq_nil_iff_forall_not_mem.mpr fun c first => ?_
  have below := ordered.below p c first
  have later := ordered.later p c first
  omega

theorem mem_preorderWithin (enough : bound ≤ p + fuel) :
    x ∈ preorderWithin children fuel p ↔ Descends children p x := by
  induction fuel generalizing p with
  | zero =>
    rw [preorderWithin, List.mem_singleton, Descends, ReflTransGen.cases_head_iff]
    refine ⟨fun same => .inl same.symm, fun same => same.elim Eq.symm ?_⟩
    rintro ⟨c, first, -⟩
    have below := ordered.below p c first
    have later := ordered.later p c first
    omega
  | succ fuel ih =>
    rw [preorderWithin, List.mem_cons, List.mem_flatMap, Descends, ReflTransGen.cases_head_iff]
    refine or_congr eq_comm (exists_congr fun c => and_congr_right fun first => ih ?_)
    have later := ordered.later p c first
    omega

theorem preorderWithin_congr (enough : bound ≤ p + fuel)
    (enough' : bound ≤ p + fuel') : preorderWithin children fuel p = preorderWithin children fuel' p := by
  induction fuel generalizing p fuel' with
  | zero =>
    have leaf : children p = [] := ordered.leaf (by omega)
    cases fuel' with
    | zero => rfl
    | succ fuel' => rw [preorderWithin, preorderWithin, leaf, List.flatMap_nil]
  | succ fuel ih =>
    cases fuel' with
    | zero =>
      have leaf : children p = [] := ordered.leaf (by omega)
      rw [preorderWithin, preorderWithin, leaf, List.flatMap_nil]
    | succ fuel' =>
      rw [preorderWithin, preorderWithin, List.cons_inj_right]
      refine List.flatMap_congr fun c first => ?_
      have later := ordered.later p c first
      exact ih (by omega) (by omega)

theorem preorder_eq (p : Nat) :
    preorder children bound p = p :: (children p).flatMap (preorder children bound) := by
  have unfolded : preorder children bound p = preorderWithin children (bound - p + 1) p :=
    ordered.preorderWithin_congr (by omega) (by omega)
  rw [unfolded, preorderWithin, List.cons_inj_right]
  refine List.flatMap_congr fun c first => ?_
  have later := ordered.later p c first
  exact ordered.preorderWithin_congr (by omega) (by omega)

theorem mem_preorder : x ∈ preorder children bound p ↔ Descends children p x :=
  ordered.mem_preorderWithin (by omega)

theorem self_mem_preorder (p : Nat) : p ∈ preorder children bound p :=
  ordered.mem_preorder.mpr .refl

theorem descends_or (left : Descends children a x)
    (right : Descends children b x) : Descends children a b ∨ Descends children b a := by
  have one : Relator.RightUnique (Function.swap fun p c => c ∈ children p) := fun c p q first second =>
    ordered.single p q c first second
  rcases ReflTransGen.total_of_right_unique one left.swap right.swap with down | down
  · exact .inr down.swap
  · exact .inl down.swap

theorem siblings_apart (left : a ∈ children p) (right : b ∈ children p)
    (descends : Descends children a b) : a = b := by
  rcases ReflTransGen.cases_tail descends with same | ⟨q, down, last⟩
  · exact same.symm
  · obtain rfl := ordered.single q p b last right
    have up := ordered.descends_le down
    have later := ordered.later q a left
    omega

theorem preorder_nodup (p : Nat) : (preorder children bound p).Nodup := by
  induction room : bound - p using Nat.strongRecOn generalizing p with
  | ind room ih =>
    rw [ordered.preorder_eq, List.nodup_cons, List.nodup_flatMap]
    refine ⟨fun again => ?_, fun c first => ?_, ?_⟩
    · obtain ⟨c, first, down⟩ := List.mem_flatMap.mp again
      have up := ordered.descends_le (ordered.mem_preorder.mp down)
      have later := ordered.later p c first
      omega
    · have later := ordered.later p c first
      have below := ordered.below p c first
      exact ih (bound - c) (by omega) c rfl
    · refine (ordered.once p).pairwise_of_forall_ne fun a left b right other => ?_
      intro x inLeft inRight
      rcases ordered.descends_or (ordered.mem_preorder.mp inLeft) (ordered.mem_preorder.mp inRight) with
        down | down
      · exact other (ordered.siblings_apart left right down)
      · exact other (ordered.siblings_apart right left down).symm

theorem preorder_length_le (inside : p < bound) : (preorder children bound p).length ≤ bound := by
  have within : preorder children bound p ⊆ List.range bound := fun x listed => by
    rcases ReflTransGen.cases_tail (ordered.mem_preorder.mp listed) with rfl | ⟨q, -, last⟩
    · exact List.mem_range.mpr inside
    · exact List.mem_range.mpr (ordered.below q x last)
  have short := (List.subperm_of_subset (ordered.preorder_nodup p) within).length_le
  rwa [List.length_range] at short

end

theorem mem_append : c ∈ Function.update children p (children p ++ [n]) q ↔ c ∈ children q ∨ q = p ∧ c = n := by
  by_cases here : q = p
  · subst here
    simp
  · simp [here]

theorem append (ordered : Ordered children bound) (inside : p < bound) :
    Ordered (Function.update children p (children p ++ [bound])) (bound + 1) where
  later q c member := by
    rcases mem_append.mp member with old | ⟨rfl, rfl⟩
    · exact ordered.later q c old
    · exact inside
  below q c member := by
    rcases mem_append.mp member with old | ⟨rfl, rfl⟩
    · exact Nat.lt_succ_of_lt (ordered.below q c old)
    · exact Nat.lt_succ_self _
  once q := by
    by_cases here : q = p
    · subst here
      rw [Function.update_self, List.nodup_append]
      refine ⟨ordered.once q, List.nodup_singleton bound, fun c old b last same => ?_⟩
      have below := ordered.below q c old
      rw [List.mem_singleton] at last
      omega
    · rw [Function.update_of_ne here]
      exact ordered.once q
  single q q' c member member' := by
    rcases mem_append.mp member with old | ⟨here, new⟩
    · rcases mem_append.mp member' with old' | ⟨-, new'⟩
      · exact ordered.single q q' c old old'
      · exact absurd (ordered.below q c old) (by omega)
    · rcases mem_append.mp member' with old' | ⟨here', -⟩
      · exact absurd (ordered.below q' c old') (by omega)
      · exact here.trans here'.symm

end Ordered

theorem preorderWithin_update {fuel : Nat}
    (same : ∀ q ∈ preorderWithin children fuel p, children' q = children q) :
    preorderWithin children' fuel p = preorderWithin children fuel p := by
  induction fuel generalizing p with
  | zero => rfl
  | succ fuel ih =>
    have same : ∀ q ∈ p :: (children p).flatMap (preorderWithin children fuel), children' q = children q := same
    rw [preorderWithin, preorderWithin, same p List.mem_cons_self, List.cons_inj_right]
    exact List.flatMap_congr fun c first => ih fun q inside =>
      same q (List.mem_cons_of_mem p (List.mem_flatMap.mpr ⟨c, first, inside⟩))

theorem preorder_congr (same : ∀ q ∈ preorder children bound p, children' q = children q) :
    preorder children' bound p = preorder children bound p :=
  preorderWithin_update same

theorem flatMap_preorder_congr {nodes : List Nat}
    (same : ∀ q ∈ nodes.flatMap (preorder children bound), children' q = children q) :
    nodes.flatMap (preorder children' bound) = nodes.flatMap (preorder children bound) :=
  List.flatMap_congr fun c first => preorder_congr fun q inside =>
    same q (List.mem_flatMap.mpr ⟨c, first, inside⟩)

end Preorder

section Walk
variable {children children' : Nat → List Nat} {bound root : Nat}

/-- A node of the root's tree, between what comes before it in preorder and what
comes after its own subtree. -/
inductive Position (children : Nat → List Nat) (bound root : Nat) : Nat → List Nat → List Nat → Prop where
  | root : Position children bound root root [] []
  | down : Position children bound root p before after → children p = left ++ c :: right →
      Position children bound root c (before ++ p :: left.flatMap (preorder children bound))
        (right.flatMap (preorder children bound) ++ after)

namespace Position

theorem preorder_eq (ordered : Ordered children bound) (position : Position children bound root p before after) :
    preorder children bound root = before ++ preorder children bound p ++ after := by
  induction position with
  | root => rw [List.nil_append, List.append_nil]
  | down _ split ih =>
    rw [ih, ordered.preorder_eq, split]
    simp only [List.flatMap_append, List.flatMap_cons, List.append_assoc, List.cons_append]

theorem root_le (ordered : Ordered children bound) (position : Position children bound root p before after) :
    root ≤ p := by
  induction position with
  | root => exact Nat.le_refl root
  | down _ split ih => exact Nat.le_trans ih (Nat.le_of_lt (ordered.later _ _ (by rw [split]; simp)))

theorem lt_bound (ordered : Ordered children bound') (inside : root < bound')
    (position : Position children bound root p before after) : p < bound' := by
  cases position with
  | root => exact inside
  | @down q _ _ _ _ _ _ split => exact ordered.below q p (by rw [split]; simp)

theorem descends (position : Position children bound root p before after) : Descends children root p := by
  induction position with
  | root => exact .refl
  | down _ split ih => exact ih.tail (by rw [split]; simp)

theorem congr (position : Position children bound root p before after)
    (same : ∀ q, q ∈ before ∨ q ∈ after → children' q = children q) :
    Position children' bound root p before after := by
  induction position with
  | root => exact .root
  | @down p before after left c right _ split ih =>
    have above := ih fun q outside => same q <| outside.imp
      (fun inside => List.mem_append_left _ inside) fun inside => List.mem_append_right _ inside
    have leftSame : left.flatMap (preorder children' bound) = left.flatMap (preorder children bound) :=
      flatMap_preorder_congr fun q inside =>
        same q (.inl (List.mem_append_right _ (List.mem_cons_of_mem p inside)))
    have rightSame : right.flatMap (preorder children' bound) = right.flatMap (preorder children bound) :=
      flatMap_preorder_congr fun q inside => same q (.inr (List.mem_append_left _ inside))
    have here : children' p = left ++ c :: right :=
      (same p (.inl (List.mem_append_right _ List.mem_cons_self))).trans split
    rw [← leftSame, ← rightSame]
    exact .down above here

theorem exists_of_descends (descends : Descends children root p) :
    ∃ before after, Position children bound root p before after := by
  induction descends with
  | refl => exact ⟨[], [], .root⟩
  | tail _ last ih =>
    obtain ⟨before, after, position⟩ := ih
    obtain ⟨left, right, split⟩ := List.append_of_mem last
    exact ⟨_, _, position.down split⟩

theorem parent_first (ordered : Ordered children bound) (position : Position children bound root p before after)
    (child : c ∈ children p) :
    preorder children bound root = (before ++ [p]) ++ ((children p).flatMap (preorder children bound) ++ after) ∧
      c ∈ (children p).flatMap (preorder children bound) ++ after := by
  constructor
  · rw [position.preorder_eq ordered, ordered.preorder_eq p]
    simp only [List.append_assoc, List.cons_append, List.nil_append]
  · exact List.mem_append_left _ (List.mem_flatMap.mpr ⟨c, child, ordered.self_mem_preorder c⟩)

theorem outside (ordered : Ordered children bound) (position : Position children bound root p before after)
    (inside : q ∈ preorder children bound p) : q ∉ before ∧ q ∉ after := by
  have once := ordered.preorder_nodup root
  rw [position.preorder_eq ordered] at once
  obtain ⟨first, -, apart⟩ := List.nodup_append.mp once
  obtain ⟨-, -, apartFirst⟩ := List.nodup_append.mp first
  exact ⟨fun there => apartFirst q there q inside rfl,
    fun there => apart q (List.mem_append_right _ inside) q there rfl⟩

theorem update (ordered : Ordered children bound) (position : Position children bound root p before after)
    (same : ∀ q, q ≠ p → children' q = children q) : Position children' bound root p before after := by
  have apart := position.outside ordered (ordered.self_mem_preorder p)
  refine position.congr fun q outside => same q fun here => ?_
  subst here
  exact outside.elim apart.1 apart.2

end Position
end Walk
end VeaOS.Forest
