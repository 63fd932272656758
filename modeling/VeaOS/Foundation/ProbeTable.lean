import Mathlib.Data.Fin.Basic

/-! A table that is probed from the place of a key on, around its end. A search
stops before a slot that was never used; what is removed leaves a mark, so that no
slot between a key and its place is unused again. -/
namespace VeaOS.Foundation
open Function
variable {n : Nat}

inductive Slot (Key : Type) where
  | unused
  | removed
  | holds (key : Key)
  deriving DecidableEq

namespace Slot
variable {Key : Type}

def vacant : Slot Key → Bool
  | .unused | .removed => true
  | .holds _ => false

theorem vacant_eq_false {slot : Slot Key} : slot.vacant = false ↔ ∃ key, slot = .holds key := by
  cases slot with
  | unused | removed => exact ⟨fun vacant => absurd vacant Bool.noConfusion, fun ⟨_, same⟩ => nomatch same⟩
  | holds key => exact ⟨fun _ => ⟨key, rfl⟩, fun _ => rfl⟩

end Slot

namespace Probe

/-- The slot `k` places on. -/
def after (i : Fin n) (k : Nat) : Fin n := ⟨(i.val + k) % n, Nat.mod_lt _ i.pos⟩

theorem after_zero (i : Fin n) : after i 0 = i := Fin.ext (Nat.mod_eq_of_lt i.isLt)

theorem after_after (i : Fin n) (j k : Nat) : after (after i j) k = after i (j + k) := by
  apply Fin.ext
  simp only [after]
  rw [Nat.mod_add_mod, Nat.add_assoc]

/-- The first slot that is accepted, from one on. -/
def probe (accepts : Fin n → Bool) : Nat → Fin n → Option (Fin n)
  | 0, _ => none
  | left + 1, i => if accepts i then some i else probe accepts left (after i 1)

/-- The same, but the slot after a rejected one has to be in use. -/
def search (accepts unused : Fin n → Bool) : Nat → Fin n → Option (Fin n)
  | 0, _ => none
  | left + 1, i =>
    if accepts i then some i
    else if unused (after i 1) then none
    else search accepts unused left (after i 1)

theorem probe_some {accepts : Fin n → Bool} (found : probe accepts left i = some j) :
    accepts j = true ∧ ∃ k, k < left ∧ j = after i k ∧ ∀ l, l < k → accepts (after i l) = false := by
  induction left generalizing i with
  | zero => cases found
  | succ left ih =>
    rw [probe] at found
    split at found
    next accepted =>
      obtain rfl := Option.some.inj found
      exact ⟨accepted, 0, Nat.succ_pos _, (after_zero i).symm, fun l below => absurd below (Nat.not_lt_zero l)⟩
    next rejected =>
      obtain ⟨accepted, k, bound, same, earlier⟩ := ih found
      refine ⟨accepted, k + 1, Nat.succ_lt_succ bound, ?_, fun l below => ?_⟩
      · rw [same, after_after, Nat.add_comm 1 k]
      · cases l with
        | zero =>
          rw [after_zero]
          exact Bool.eq_false_of_not_eq_true rejected
        | succ l =>
          rw [Nat.add_comm l 1, ← after_after]
          exact earlier l (by omega)

theorem search_some {accepts unused : Fin n → Bool} (found : search accepts unused left i = some j) :
    accepts j = true := by
  induction left generalizing i with
  | zero => cases found
  | succ left ih =>
    rw [search] at found
    split at found
    next accepted =>
      obtain rfl := Option.some.inj found
      exact accepted
    next =>
      split at found
      next => cases found
      next => exact ih found

theorem search_complete {accepts unused : Fin n → Bool} (bound : k < left)
    (accepted : accepts (after i k) = true) (used : ∀ l, l ≤ k → unused (after i l) = false) :
    ∃ j, search accepts unused left i = some j := by
  induction left generalizing i k with
  | zero => exact absurd bound (Nat.not_lt_zero k)
  | succ left ih =>
    rw [search]
    split
    next => exact ⟨i, rfl⟩
    next rejected =>
      cases k with
      | zero =>
        rw [after_zero] at accepted
        exact absurd accepted rejected
      | succ k =>
        rw [if_neg (by rw [used 1 (by omega)]; exact Bool.false_ne_true)]
        apply ih (k := k) (by omega)
        · rw [after_after, Nat.add_comm 1 k]
          exact accepted
        · intro l below
          rw [after_after]
          exact used (1 + l) (by omega)

section Table
variable {Key : Type} [DecidableEq Key] (place : Key → Fin n)

def room (slots : Fin n → Slot Key) (key : Key) : Option (Fin n) :=
  probe (fun i => (slots i).vacant) n (place key)

def find (slots : Fin n → Slot Key) (key : Key) : Option (Fin n) :=
  search (fun i => slots i == .holds key) (fun i => slots i == .unused) n (place key)

/-- No key is held twice, nor behind an unused slot. -/
structure Chained (slots : Fin n → Slot Key) : Prop where
  chain : slots i = .holds key → ∃ k, k < n ∧ i = after (place key) k ∧
    ∀ l, l < k → slots (after (place key) l) ≠ .unused
  unique : slots i = .holds key → slots j = .holds key → i = j

variable {place} {slots : Fin n → Slot Key} {key : Key} {i : Fin n}

namespace Chained

theorem find_iff (chained : Chained place slots) : find place slots key = some i ↔ slots i = .holds key := by
  constructor
  · intro found
    exact eq_of_beq (search_some found)
  · intro held
    obtain ⟨k, bound, rfl, used⟩ := chained.chain held
    obtain ⟨j, found⟩ : ∃ j, find place slots key = some j := by
      apply search_complete bound
      · exact beq_iff_eq.mpr held
      · intro l below
        rw [beq_eq_false_iff_ne]
        obtain same | before := Nat.eq_or_lt_of_le below
        · rw [same, held]
          exact nofun
        · exact used l before
    rw [found, chained.unique (eq_of_beq (search_some found)) held]

omit [DecidableEq Key] in
theorem insert (chained : Chained place slots) (absent : ∀ i, slots i ≠ .holds key)
    (free : room place slots key = some i) : Chained place (update slots i (.holds key)) := by
  obtain ⟨vacant, k, bound, position, earlier⟩ := probe_some free
  have used : ∀ {j}, slots j ≠ .unused → update slots i (.holds key) j ≠ .unused := by
    intro j inUse
    by_cases here : j = i
    · rw [here, update_self]
      exact nofun
    · rwa [update_of_ne here]
  constructor
  · intro j other held
    by_cases here : j = i
    · rw [here, update_self] at held
      obtain rfl := Slot.holds.inj held
      refine ⟨k, bound, here.trans position, fun l below => used ?_⟩
      obtain ⟨key, full⟩ := Slot.vacant_eq_false.mp (earlier l below)
      rw [full]
      exact nofun
    · rw [update_of_ne here] at held
      obtain ⟨k, bound, position, inUse⟩ := chained.chain held
      exact ⟨k, bound, position, fun l below => used (inUse l below)⟩
  · intro j other j' held held'
    by_cases here : j = i
    · by_cases here' : j' = i
      · rw [here, here']
      · rw [here, update_self] at held
        rw [update_of_ne here', ← Slot.holds.inj held] at held'
        exact absurd held' (absent j')
    · rw [update_of_ne here] at held
      by_cases here' : j' = i
      · rw [here', update_self] at held'
        rw [← Slot.holds.inj held'] at held
        exact absurd held (absent j)
      · rw [update_of_ne here'] at held'
        exact chained.unique held held'

omit [DecidableEq Key] in
theorem remove (chained : Chained place slots) (i : Fin n) :
    Chained place (update slots i .removed) := by
  have kept : ∀ {j key}, update slots i .removed j = .holds key → slots j = .holds key := by
    intro j key held
    by_cases here : j = i
    · rw [here, update_self] at held
      cases held
    · rwa [update_of_ne here] at held
  constructor
  · intro j other held
    obtain ⟨k, bound, position, inUse⟩ := chained.chain (kept held)
    refine ⟨k, bound, position, fun l below => ?_⟩
    by_cases here : after (place other) l = i
    · rw [here, update_self]
      exact nofun
    · rw [update_of_ne here]
      exact inUse l below
  · exact fun held held' => chained.unique (kept held) (kept held')

omit [DecidableEq Key] in
theorem empty : Chained place fun _ => (.unused : Slot Key) := ⟨nofun, nofun⟩

end Chained
end Table
end Probe
end VeaOS.Foundation
