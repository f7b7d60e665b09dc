import CorrelationPlot.Proofs.Binary64
import Mathlib.Tactic.Ring

/-!
Rounding to the nearest binary64 value. Only the quotient counts and not the way it is written, and
every finite value is the nearest to itself. Integers of 64 bits are rounded to finite values.
-/
namespace CorrelationPlot.Binary64

theorem hiddenBit_eq : hiddenBit = 2 ^ 52 := rfl

theorem two_pow_mul_one (n : Nat) : 2 ^ n * one = 2 ^ (n + 1074) := by
  rw [one, Nat.one_shiftLeft, Nat.pow_add]

theorem divideToEven_mul {k : Nat} (positive : 0 < k) (a b : Nat) :
    divideToEven (k * a) (k * b) = divideToEven a b := by
  have below : 2 * (k * (a % b)) < k * b ↔ 2 * (a % b) < b := by
    rw [Nat.mul_left_comm]
    exact Nat.mul_lt_mul_left positive
  have above : k * b < 2 * (k * (a % b)) ↔ b < 2 * (a % b) := by
    rw [Nat.mul_left_comm]
    exact Nat.mul_lt_mul_left positive
  simp only [divideToEven, Nat.mul_div_mul_left _ _ positive, Nat.mul_mod_mul_left, below, above]

theorem divideToEven_exact {b : Nat} (positive : 0 < b) (a : Nat) : divideToEven (a * b) b = a := by
  simp [divideToEven, Nat.mul_div_cancel _ positive, positive]

theorem nearestWord_mul {k : Nat} (positive : 0 < k) (num den : Nat) :
    nearestWord (k * num) (k * den) = nearestWord num den := by
  simp only [nearestWord, Nat.mul_assoc, Nat.mul_div_mul_left _ _ positive, Nat.shiftLeft_eq,
    divideToEven_mul positive]

/-- Equal quotients have one nearest value. -/
theorem nearestWord_congr {num den num' den' : Nat} (positive : 0 < den) (positive' : 0 < den')
    (h : num * den' = num' * den) : nearestWord num den = nearestWord num' den' := by
  calc nearestWord num den
    _ = nearestWord (den' * num) (den' * den) := (nearestWord_mul positive' num den).symm
    _ = nearestWord (den * num') (den * den') := by
      rw [Nat.mul_comm den' num, h, Nat.mul_comm num' den, Nat.mul_comm den' den]
    _ = nearestWord num' den' := nearestWord_mul positive num' den'

/-- The significand and the power of two of a quotient that is a whole number of units. -/
theorem nearestWord_significand {m power : Nat} (h : Nat.log2 (m * 2 ^ power) - 52 = power) :
    nearestWord (m * 2 ^ power) one = min (power * hiddenBit + m) infinityWord := by
  have split : m * 2 ^ power * one = m * (one * 2 ^ power) := by ring
  simp only [nearestWord]
  rw [Nat.mul_div_cancel _ one_pos, h, Nat.shiftLeft_eq, split,
    divideToEven_exact (Nat.mul_pos one_pos (Nat.two_pow_pos power))]

theorem log2_significand {m : Nat} (power : Nat) (low : 2 ^ 52 ≤ m) (high : m < 2 ^ 53) :
    Nat.log2 (m * 2 ^ power) = 52 + power := by
  have units := Nat.two_pow_pos power
  have nonzero : m * 2 ^ power ≠ 0 := (Nat.mul_pos (by omega) units).ne'
  rw [Nat.log2_eq_iff nonzero, Nat.pow_add, show 52 + power + 1 = 53 + power by omega, Nat.pow_add]
  exact ⟨Nat.mul_le_mul_right _ low, Nat.mul_lt_mul_of_pos_right high units⟩

/-- A finite value is nearest to itself. -/
theorem nearestWord_units {w : Nat} (finite : w < infinityWord) :
    nearestWord (unitsOfWord w) one = w := by
  by_cases small : w < hiddenBit
  · have power : Nat.log2 (w * 2 ^ 0) - 52 = 0 := by
      rw [Nat.pow_zero, Nat.mul_one, Nat.sub_eq_zero_iff_le]
      by_cases zero : w = 0
      · simp [zero]
      · exact Nat.le_of_lt ((Nat.log2_lt zero).mpr small)
    have word := nearestWord_significand power
    rw [Nat.pow_zero, Nat.mul_one] at word
    rw [unitsOfWord, if_pos small, word]
    omega
  · -- The exponent field counts from one, so its power of two is one less.
    obtain ⟨power, hpower⟩ : ∃ power, w / hiddenBit = power + 1 :=
      ⟨w / hiddenBit - 1, by have := Nat.div_pos (not_lt.mp small) (by decide); omega⟩
    have fraction : w % hiddenBit < hiddenBit := Nat.mod_lt _ (by decide)
    have whole := Nat.div_add_mod w hiddenBit
    rw [hpower] at whole
    have log := log2_significand (m := hiddenBit + w % hiddenBit) power
      (by rw [hiddenBit_eq]; omega)
      (by rw [hiddenBit_eq] at fraction ⊢; omega)
    have power_eq : Nat.log2 ((hiddenBit + w % hiddenBit) * 2 ^ power) - 52 = power := by omega
    have word := nearestWord_significand power_eq
    rw [unitsOfWord, if_neg small, hpower, Nat.add_sub_cancel, Nat.shiftLeft_eq, word]
    rw [hiddenBit_eq] at *
    omega

/-- Less than half a unit is nearest to zero. -/
theorem nearestWord_small {num den : Nat} (h : 2 * (num * one) < den) :
    nearestWord num den = 0 := by
  have quotient : num * one / den = 0 := Nat.div_eq_of_lt (by omega)
  have remainder : num * one % den = num * one := Nat.mod_eq_of_lt (by omega)
  simp [nearestWord, divideToEven, quotient, remainder, h]

/-- Where even the exponent is too great, no finite value is near. -/
theorem nearestWord_large {num den n : Nat} (great : 2099 ≤ n) (h : 2 ^ n ≤ num * one / den) :
    nearestWord num den = infinityWord := by
  have log : n ≤ Nat.log2 (num * one / den) :=
    (Nat.le_log2 ((Nat.two_pow_pos n).trans_le h).ne').mpr h
  have great : 2047 ≤ Nat.log2 (num * one / den) - 52 := by omega
  have field := Nat.mul_le_mul_right hiddenBit great
  exact Nat.min_eq_right (Nat.le_add_right_of_le field)

theorem divideToEven_le (a b : Nat) : divideToEven a b ≤ a / b + 1 := by
  simp only [divideToEven]
  split
  · omega
  · split <;> omega

/-- The exponent bounds the nearest value. -/
theorem nearestWord_le (num den : Nat) :
    nearestWord num den ≤ (Nat.log2 (num * one / den) - 52) * hiddenBit + 2 * hiddenBit := by
  have significand : num * one / (den <<< (Nat.log2 (num * one / den) - 52)) < 2 ^ 53 := by
    rw [Nat.shiftLeft_eq, ← Nat.div_div_eq_div_mul]
    apply Nat.div_lt_of_lt_mul
    rw [← Nat.pow_add]
    exact Nat.lt_log2_self.trans_le (Nat.pow_le_pow_right (by decide) (by omega))
  have rounded := divideToEven_le (num * one) (den <<< (Nat.log2 (num * one / den) - 52))
  refine (Nat.min_le_left _ _).trans (Nat.add_le_add_left ?_ _)
  rw [hiddenBit_eq]
  omega

/-- Integers of 64 bits are near to finite values. -/
theorem nearestWord_int {n : Nat} (h : n < 2 ^ 65) : nearestWord n 1 < infinityWord := by
  have log : Nat.log2 (n * one / 1) ≤ 1138 := by
    rw [Nat.div_one]
    by_cases zero : n = 0
    · simp [zero]
    · have bound : n * one < 2 ^ 65 * one := Nat.mul_lt_mul_of_pos_right h one_pos
      rw [two_pow_mul_one] at bound
      have log := (Nat.log2_lt (Nat.mul_pos (Nat.pos_of_ne_zero zero) one_pos).ne').mpr bound
      omega
  calc nearestWord n 1
    _ ≤ (Nat.log2 (n * one / 1) - 52) * hiddenBit + 2 * hiddenBit := nearestWord_le n 1
    _ ≤ 1086 * hiddenBit + 2 * hiddenBit :=
      Nat.add_le_add_right (Nat.mul_le_mul_right _ (by omega)) _
    _ < infinityWord := by decide

end CorrelationPlot.Binary64
