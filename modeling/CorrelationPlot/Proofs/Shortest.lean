import CorrelationPlot.Number.Decimal
import CorrelationPlot.Proofs.Nearest
import Mathlib

/-!
The shortest decimal of a binary64 value reads back as that value. A decimal is read by its value
alone, so neither trailing zeros nor the way its exponent is written matter.
-/
namespace CorrelationPlot

namespace Binary64

/-- A value is given back by its sign and its magnitude. -/
theorem ofWord_magnitude (x : Float) : ofWord (isNegative x) (magnitude x) = x := by
  have bits : (if isNegative x then signBit + magnitude x else magnitude x) = word x := by
    have wide : word x < 2 * signBit := x.toBits.toNat_lt
    simp only [isNegative, magnitude, decide_eq_true_eq]
    split
    · next negative =>
      rw [Nat.mod_eq_sub_mod negative, Nat.mod_eq_of_lt (by omega)]
      omega
    · next positive => exact Nat.mod_eq_of_lt (not_le.mp positive)
  -- No module of Mathlib but the whole of it knows that the bits of a value give it back.
  rw [ofWord, bits, word, UInt64.ofNat_toNat, Float.ofBits_toBits]

/-- Bits that are those of a finite value or of an infinity are kept. -/
theorem toBits_ofBits {b : UInt64} (h : b.toNat / hiddenBit % 2048 ≠ 2047) :
    (Float.ofBits b).toBits = b := by
  have valid : Float.Model.Format.binary64.Valid b.toBitVec := by
    constructor
    intro exponent
    have field := congrArg BitVec.toNat exponent
    simp [Float.Model.UnpackedFloat.unpackExponent, Nat.shiftRight_eq_div_pow] at field
    exact absurd field h
  exact congrArg Float.toBits (Float.ofBits_toBits ⟨⟨b, valid⟩⟩)

theorem magnitude_ofWord (negative : Bool) {w : Nat} (finite : w < infinityWord) :
    magnitude (ofWord negative w) = w := by
  let bits := if negative then signBit + w else w
  have sign : signBit = 2048 * hiddenBit := rfl
  have field : w / hiddenBit < 2047 := Nat.div_lt_of_lt_mul (Nat.mul_comm .. ▸ finite)
  have small : w < signBit := finite.trans (by decide)
  have exponent : bits / hiddenBit % 2048 = w / hiddenBit := by
    cases negative with
    | true =>
        have shifted : (signBit + w) / hiddenBit = 2048 + w / hiddenBit := by
          rw [sign, Nat.mul_comm, Nat.mul_add_div (by decide)]
        simp only [bits, if_true, shifted, Nat.add_mod_left]
        exact Nat.mod_eq_of_lt (field.trans (by decide))
    | false => exact Nat.mod_eq_of_lt (field.trans (by decide))
  have rest : bits % signBit = w := by
    cases negative with
    | true => simpa [bits] using Nat.mod_eq_of_lt small
    | false => exact Nat.mod_eq_of_lt small
  have wide : (UInt64.ofNat bits).toNat = bits := by
    apply Nat.mod_eq_of_lt
    have double : signBit + signBit = 2 ^ 64 := rfl
    simp only [bits]
    split <;> omega
  have kept := toBits_ofBits (b := UInt64.ofNat bits) (by rw [wide, exponent]; exact field.ne)
  rw [magnitude, word, ofWord, kept, wide, rest]

theorem isFinite_nearest_int (negative : Bool) {n : Nat} (h : n < 2 ^ 65) :
    isFinite (nearest negative n 1) := by
  have near := nearestWord_int h
  rw [isFinite, nearest, magnitude_ofWord _ near]
  exact decide_eq_true near

theorem isFinite_ofInt {i : Int} (inRange : -0x8000000000000000 ≤ i ∧ i < UInt64.size) :
    isFinite (ofInt i) := by
  have size : UInt64.size = 2 ^ 64 := rfl
  exact isFinite_nearest_int _ (by omega)

theorem nearestWord_magnitude {x : Float} (finite : isFinite x) :
    nearestWord (units x) one = magnitude x :=
  nearestWord_units (of_decide_eq_true finite)

end Binary64

namespace Decimal

theorem tenTo_pos (e : Int) : 0 < tenTo e := Nat.pow_pos (by decide)

theorem tenTo_of_nonpos {e : Int} (h : e ≤ 0) : tenTo e = 1 := by
  rw [tenTo, Int.toNat_of_nonpos h, Nat.pow_eq, Nat.pow_zero]

theorem two_pow_le_tenTo {e : Int} {n : Nat} (h : n ≤ e) : 2 ^ n ≤ tenTo e := by
  calc 2 ^ n
    _ ≤ 10 ^ n := Nat.pow_le_pow_left (by decide) n
    _ ≤ tenTo e := Nat.pow_le_pow_right (by decide) (by omega)

theorem word_of_digits_zero {d : Decimal} (h : d.digits = 0) : d.word = 0 := by
  apply Binary64.nearestWord_small
  simp [ratio, h, tenTo_pos]

theorem word_of_great {d : Decimal} (nonzero : d.digits ≠ 0) (h : 2048 < d.exponent) :
    d.word = Binary64.infinityWord := by
  have great : 2 ^ 2049 ≤ d.digits * tenTo d.exponent :=
    (two_pow_le_tenTo (by omega)).trans (Nat.le_mul_of_pos_left _ (Nat.pos_of_ne_zero nonzero))
  have scaled := Nat.mul_le_mul_right Binary64.one great
  rw [Binary64.two_pow_mul_one] at scaled
  apply Binary64.nearestWord_large (n := 2049 + 1074) (by decide)
  simpa only [ratio, tenTo_of_nonpos (show -d.exponent ≤ 0 by omega), Nat.div_one] using scaled

theorem word_of_tiny {d : Decimal} (h : d.exponent + Nat.log2 d.digits < -2048) : d.word = 0 := by
  apply Binary64.nearestWord_small
  simp only [ratio, tenTo_of_nonpos (show d.exponent ≤ 0 by omega), Nat.mul_one]
  have digits : 2 * d.digits < 2 ^ (Nat.log2 d.digits + 2) := by
    have := @Nat.lt_log2_self d.digits
    rw [Nat.pow_succ]
    omega
  calc 2 * (d.digits * Binary64.one)
    _ = 2 * d.digits * Binary64.one := (Nat.mul_assoc ..).symm
    _ < 2 ^ (Nat.log2 d.digits + 2) * Binary64.one :=
      Nat.mul_lt_mul_of_pos_right digits Binary64.one_pos
    _ = 2 ^ (Nat.log2 d.digits + 2 + 1074) := Binary64.two_pow_mul_one _
    _ ≤ tenTo (-d.exponent) := two_pow_le_tenTo (by omega)

/-- The shortcuts for exponents far outside the format change nothing. -/
theorem toFloat_eq (negative : Bool) (d : Decimal) :
    d.toFloat negative = Binary64.ofWord negative d.word := by
  rw [toFloat]
  split
  · next zero => rw [word_of_digits_zero zero]
  · next nonzero =>
    split
    · next great => rw [word_of_great nonzero great, Binary64.infinity]
    · split
      · next tiny => rw [word_of_tiny tiny]
      · rfl

/-- Zeros at the end of the digits count as much as a greater exponent. -/
theorem word_shift (k n : Nat) (e : Int) : word ⟨k * 10 ^ n, e⟩ = word ⟨k, e + n⟩ := by
  apply Binary64.nearestWord_congr (tenTo_pos _) (tenTo_pos _)
  have powers : 10 ^ n * tenTo e * tenTo (-(e + n)) = tenTo (e + n) * tenTo (-e) := by
    simp only [tenTo, Nat.pow_eq, ← Nat.pow_add]
    congr 1
    omega
  calc k * 10 ^ n * tenTo e * tenTo (-(e + n))
    _ = k * (10 ^ n * tenTo e * tenTo (-(e + n))) := by ring
    _ = k * tenTo (e + n) * tenTo (-e) := by rw [powers]; ring

theorem word_strip (d : Decimal) : d.strip.word = d.word := by
  fun_induction strip d with
  | case1 d h ih =>
      have whole : d.digits / 10 * 10 ^ 1 = d.digits := by omega
      have shift := word_shift (d.digits / 10) 1 d.exponent
      rw [whole] at shift
      exact ih.trans shift.symm
  | case2 d h => rfl

/-- A denominator that is a power of two. -/
theorem word_dyadic (m n : Nat) :
    word ⟨m * Nat.pow 5 n, -n⟩ = Binary64.nearestWord m (1 <<< n) := by
  have num : tenTo (-n) = 1 := tenTo_of_nonpos (by omega)
  have den : tenTo n = 5 ^ n * 2 ^ n := by
    rw [tenTo, Int.toNat_natCast, Nat.pow_eq, ← Nat.mul_pow]
  simp only [word, ratio, num, den, Int.neg_neg, Nat.mul_one, Nat.pow_eq]
  rw [Nat.mul_comm, Binary64.nearestWord_mul (Nat.pow_pos (by decide)), Nat.one_shiftLeft]

theorem word_exact {x : Float} (finite : Binary64.isFinite x) :
    (exact x).word = Binary64.magnitude x := by
  -- The exponent stays a variable, so that its powers are not evaluated.
  have dyadic : ∀ n : Nat, n = 1074 →
      (exact x).word = Binary64.nearestWord (Binary64.units x) (1 <<< n) := by
    intro n hn
    have exponent : (-1074 : Int) = -n := by omega
    rw [exact, exponent, ← hn]
    exact word_dyadic _ n
  rw [dyadic 1074 rfl, ← Binary64.one, Binary64.nearestWord_magnitude finite]

theorem nearer_eq (tie : Tie) (num den : Nat) (below above : Decimal) :
    nearer tie num den below above = below ∨ nearer tie num den below above = above := by
  delta nearer
  dsimp only
  split
  · exact .inl rfl
  · split
    · exact .inr rfl
    · cases tie with
      | toEven => exact ite_eq_or_eq _ _ _
      | away => exact .inr rfl

theorem word_onGrid {tie : Tie} {w num den : Nat} {e : Int} {d : Decimal}
    (h : onGrid tie w num den e = some d) : d.word = w := by
  simp only [onGrid] at h
  split at h
  · next hb =>
    obtain rfl := Option.some.inj h
    split
    · next ha =>
      obtain same | same :=
        nearer_eq tie num den (neighbours num den e).1 (neighbours num den e).2
      · rw [same, hb]
      · rw [same, ha]
    · exact hb
  · next hb =>
    split at h
    · next ha => exact Option.some.inj h ▸ ha
    · cases h

/-- The shortest decimal reads back. -/
theorem word_shortest (tie : Tie) {x : Float} (finite : Binary64.isFinite x) :
    (shortest tie x).word = Binary64.magnitude x := by
  simp only [shortest]
  split
  · next zero =>
    rw [word_of_digits_zero rfl, ← Binary64.nearestWord_magnitude finite, zero]
    exact (Binary64.nearestWord_small (by simpa using Binary64.one_pos)).symm
  · rw [word_strip]
    cases found : (List.range 17).findSome? _ with
    | none => exact word_exact finite
    | some d =>
        obtain ⟨n, -, grid⟩ := List.exists_of_findSome?_eq_some found
        exact word_onGrid grid

theorem toFloat_shortest (tie : Tie) {x : Float} (finite : Binary64.isFinite x) :
    (shortest tie x).toFloat (Binary64.isNegative x) = x := by
  rw [toFloat_eq, word_shortest tie finite, Binary64.ofWord_magnitude]

/-- Only zero has no digit but zero, and it has no exponent. -/
theorem shortest_of_digits_zero {tie : Tie} {x : Float} (finite : Binary64.isFinite x)
    (h : (shortest tie x).digits = 0) : shortest tie x = ⟨0, 0⟩ := by
  have word := word_shortest tie finite
  rw [word_of_digits_zero h] at word
  have units : Binary64.units x = 0 := by
    rw [Binary64.units, ← word]
    rfl
  simp only [shortest, if_pos units]

end Decimal
end CorrelationPlot
