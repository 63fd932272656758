import Mathlib.Data.BitVec

/-! Bits packed in words of one width: a bit is tested, set and cleared by a
mask of its word. -/
namespace VeaOS.Packed
variable {w : Nat}

def test (map : Nat → BitVec w) (i : Nat) : Bool := (map (i / w) &&& 1#w <<< (i % w)) != 0#w

def set (map : Nat → BitVec w) (i : Nat) : Nat → BitVec w :=
  Function.update map (i / w) (map (i / w) ||| 1#w <<< (i % w))

def clear (map : Nat → BitVec w) (i : Nat) : Nat → BitVec w :=
  Function.update map (i / w) (map (i / w) &&& ~~~(1#w <<< (i % w)))

theorem getLsbD_mask (positive : 0 < w) (i j : Nat) :
    (1#w <<< i).getLsbD j = (decide (j < w) && decide (i = j)) := by
  rw [BitVec.getLsbD_shiftLeft, BitVec.getLsbD_one]
  by_cases within : j < w
  · by_cases same : i = j
    · simp [within, same, positive]
    · by_cases below : j < i
      · simp [within, same, below]
      · simp [within, same, below, show ¬ j - i = 0 by omega]
  · simp [within]

theorem and_highMask (word mask : BitVec w) (high : ∀ i : Fin w, mask.getLsbD i = decide (k ≤ i.val)) :
    word &&& mask = (word >>> k) <<< k := by
  apply BitVec.eq_of_getLsbD_eq
  intro i below
  rw [BitVec.getLsbD_and, high ⟨i, below⟩, BitVec.getLsbD_shiftLeft, BitVec.getLsbD_ushiftRight]
  by_cases above : k ≤ i
  · simp [above, below, show ¬ i < k by omega, show k + (i - k) = i by omega]
  · simp [above, show i < k by omega]

theorem test_eq (positive : 0 < w) (map : Nat → BitVec w) (i : Nat) :
    test map i = (map (i / w)).getLsbD (i % w) := by
  have within := Nat.mod_lt i positive
  rw [test, Bool.eq_iff_iff, bne_iff_ne]
  constructor
  · intro nonzero
    by_contra unset
    refine nonzero (BitVec.eq_of_getLsbD_eq fun j below => ?_)
    rw [BitVec.getLsbD_and, getLsbD_mask positive, BitVec.getLsbD_zero]
    by_cases same : i % w = j
    · rw [← same, Bool.eq_false_of_not_eq_true unset, Bool.false_and]
    · simp [same]
  · intro isSet zero
    have read := congrArg (·.getLsbD (i % w)) zero
    simp only [BitVec.getLsbD_and, getLsbD_mask positive, isSet, BitVec.getLsbD_zero] at read
    simp [within] at read

theorem index_eq (word : i / w = j / w) (bit : i % w = j % w) : i = j := by
  rw [← Nat.div_add_mod i w, ← Nat.div_add_mod j w, word, bit]

theorem test_set (positive : 0 < w) (map : Nat → BitVec w) (i j : Nat) :
    test (set map i) j = (test map j || decide (i = j)) := by
  rw [test_eq positive, test_eq positive, set]
  by_cases word : j / w = i / w
  · rw [word, Function.update_self, BitVec.getLsbD_or, getLsbD_mask positive]
    have same : (i % w = j % w) = (i = j) :=
      propext ⟨fun bit => index_eq word.symm bit, fun same => by rw [same]⟩
    simp only [same, Nat.mod_lt j positive, decide_true, Bool.true_and]
  · rw [Function.update_of_ne word]
    have other : i ≠ j := fun same => word (by rw [same])
    simp [other]

theorem test_clear (positive : 0 < w) (map : Nat → BitVec w) (i j : Nat) :
    test (clear map i) j = (test map j && !decide (i = j)) := by
  rw [test_eq positive, test_eq positive, clear]
  by_cases word : j / w = i / w
  · rw [word, Function.update_self, BitVec.getLsbD_and, BitVec.getLsbD_not, getLsbD_mask positive]
    have same : (i % w = j % w) = (i = j) :=
      propext ⟨fun bit => index_eq word.symm bit, fun same => by rw [same]⟩
    simp only [same, Nat.mod_lt j positive, decide_true, Bool.true_and]
  · rw [Function.update_of_ne word]
    have other : i ≠ j := fun same => word (by rw [same])
    simp [other]

theorem eq_of_test (positive : 0 < w) {a b : Nat → BitVec w} (alike : ∀ i, test a i = test b i) : a = b := by
  funext word
  refine BitVec.eq_of_getLsbD_eq fun j below => ?_
  have read := alike (w * word + j)
  rw [test_eq positive, test_eq positive, Nat.mul_add_div positive, Nat.div_eq_of_lt below, Nat.add_zero,
    Nat.mul_add_mod, Nat.mod_eq_of_lt below] at read
  exact read

theorem test_zero (positive : 0 < w) (i : Nat) : test (fun _ => 0#w) i = false := by
  rw [test_eq positive, BitVec.getLsbD_zero]

end VeaOS.Packed
