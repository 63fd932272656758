import VeaOS.Ob.DeviceRounds

/-! Where the walk goes next: from a position in preorder to the one after it. -/
namespace VeaOS.Pnp
open Forest

section Climb
variable {Device : Type} {σ : DeviceTree Device} {children : Nat → List Nat} {bound start : Nat}

theorem climb_eq (shape : TreeShape σ children) (ordered : Ordered children bound)
    (position : Position children bound start current before after) (enough : current < fuel) :
    climb σ start fuel current = some start ∧ after = [] ∨
    ∃ next after', climb σ start fuel current = some next ∧ next ≠ start ∧
      Position children bound start next (before ++ preorder children bound current) after' := by
  induction position generalizing fuel with
  | root =>
    obtain ⟨fuel, rfl⟩ := Nat.exists_eq_succ_of_ne_zero (Nat.ne_of_gt (Nat.zero_lt_of_lt enough))
    exact .inl ⟨by rw [climb, if_pos rfl], rfl⟩
  | @down p before after left c right position split ih =>
    obtain ⟨fuel, rfl⟩ := Nat.exists_eq_succ_of_ne_zero (Nat.ne_of_gt (Nat.zero_lt_of_lt enough))
    have member : c ∈ children p := by rw [split]; simp
    have later := ordered.later p c member
    have notStart : ∀ d, p < d → d ≠ start := fun d below =>
      Nat.ne_of_gt (Nat.lt_of_le_of_lt (position.root_le ordered) below)
    rw [climb, if_neg (notStart c later), shape.sibling p left c right split]
    cases right with
    | cons d rest =>
      have memberNext : d ∈ children p := by rw [split]; simp
      refine .inr ⟨d, rest.flatMap (preorder children bound) ++ after, rfl,
        notStart d (ordered.later p d memberNext), ?_⟩
      have splitNext : children p = (left ++ [c]) ++ d :: rest := split.trans (List.append_cons left c (d :: rest))
      have next := position.down splitNext
      simpa only [List.flatMap_append, List.flatMap_cons, List.flatMap_nil, List.append_nil, List.append_assoc,
        List.cons_append] using next
    | nil =>
      have parent : (σ.nodes c).parent = some p := ((shape.parent p c).mp member).2
      have whole : (before ++ p :: left.flatMap (preorder children bound)) ++ preorder children bound c =
          before ++ preorder children bound p := by
        rw [ordered.preorder_eq p, split]
        simp only [List.flatMap_append, List.flatMap_cons, List.flatMap_nil, List.append_nil, List.append_assoc,
          List.cons_append]
      rw [List.head?_nil, parent, Option.bind_some, List.flatMap_nil, List.nil_append, whole]
      exact ih (by omega)

theorem nextNode_eq (shape : TreeShape σ children) (ordered : Ordered children bound)
    (position : Position children bound start current before after) (inside : current < σ.count)
    (notRemoved : (σ.nodes current).state ≠ .removed) :
    nextNode σ start current = some start ∧ preorder children bound start = before ++ [current] ∨
    ∃ next after', nextNode σ start current = some next ∧ next ≠ start ∧
      Position children bound start next (before ++ [current]) after' := by
  rw [nextNode, shape.first current inside]
  cases below : children current with
  | nil =>
    have alone : preorder children bound current = [current] := by
      rw [ordered.preorder_eq, below, List.flatMap_nil]
    rcases climb_eq shape ordered position (Nat.lt_succ_of_lt inside) with ⟨ends, last⟩ | onward
    · refine .inl ⟨ends, ?_⟩
      rw [position.preorder_eq ordered, alone, last, List.append_nil]
    · rw [alone] at onward
      exact .inr onward
  | cons c rest =>
    have split : children current = [] ++ c :: rest := below
    have later := ordered.later current c (by rw [below]; exact List.mem_cons_self)
    refine .inr ⟨c, rest.flatMap (preorder children bound) ++ after, by simp only [List.head?_cons, if_neg notRemoved],
      Nat.ne_of_gt (Nat.lt_of_le_of_lt (position.root_le ordered) later), ?_⟩
    exact position.down split

end Climb
end VeaOS.Pnp
