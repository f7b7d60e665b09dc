import CorrelationPlot.Number.Binary64
import Mathlib.Data.Rat.Floor

/-!
The exact value of a finite number, and the integers around it.
-/
namespace CorrelationPlot.Binary64

def value (x : Float) : ℚ := signedUnits x / one

theorem one_pos : 0 < one := by
  rw [one, Nat.one_shiftLeft]
  exact Nat.two_pow_pos 1074

theorem floor_value (x : Float) : ⌊value x⌋ = floor x := by
  have pos : (0 : ℚ) < one := by exact_mod_cast one_pos
  have pos' : (0 : ℤ) < one := by exact_mod_cast one_pos
  apply eq_of_forall_le_iff
  intro n
  rw [Int.le_floor, value, le_div_iff₀ pos, floor, Int.le_ediv_iff_mul_le pos']
  exact_mod_cast Iff.rfl

theorem ceil_value (x : Float) : ⌈value x⌉ = ceil x := by
  have pos : (0 : ℚ) < one := by exact_mod_cast one_pos
  have pos' : (0 : ℤ) < one := by exact_mod_cast one_pos
  apply eq_of_forall_ge_iff
  intro n
  rw [Int.ceil_le, value, div_le_iff₀ pos, ceil, neg_le, Int.le_ediv_iff_mul_le pos', neg_mul,
    neg_le_neg_iff]
  exact_mod_cast Iff.rfl

theorem value_eq_intCast {x : Float} {n : ℤ} : value x = n ↔ floor x = n ∧ ceil x = n := by
  rw [← floor_value, ← ceil_value]
  constructor
  · intro h
    rw [h, Int.floor_intCast, Int.ceil_intCast]
    exact ⟨rfl, rfl⟩
  · intro ⟨below, above⟩
    apply le_antisymm
    · exact above ▸ Int.le_ceil (value x)
    · exact below ▸ Int.floor_le (value x)

theorem toIntWithin_mem {lo hi : Int} (low : lo ≤ 0) (high : 0 ≤ hi) (rounding : Float → Int)
    (x : Float) : lo ≤ toIntWithin lo hi rounding x ∧ toIntWithin lo hi rounding x ≤ hi := by
  unfold toIntWithin
  split_ifs
  · exact ⟨le_max_left _ _, max_le (low.trans high) (min_le_left _ _)⟩
  · exact ⟨low, high⟩
  · exact ⟨le_refl lo, low.trans high⟩
  · exact ⟨low.trans high, le_refl hi⟩

end CorrelationPlot.Binary64
