import CorrelationPlot.Text.Characters
import Mathlib.Algebra.Group.Nat.Defs

/-!
Digits as numbers. The decimal digits of a number give it back, they have no zero in front, and
zeros put before or behind them do what they do on paper. A hexadecimal digit counts by its place in
the alphabet of digits, in either case, and the digits that are written are those in lower case.
-/
namespace CorrelationPlot

namespace Digits

theorem digitValue_digit : ∀ n < 10, digitValue (digit n) = n := by
  decide

theorem value_append_digit (cs : List Char) (c : Char) :
    value (cs ++ [c]) = 10 * value cs + digitValue c := by
  simp only [value, List.foldl_append, List.foldl_cons, List.foldl_nil]

theorem value_ofNat (n : Nat) : value (ofNat n) = n := by
  induction n using Nat.strongRecOn with
  | ind n ih =>
      rw [ofNat]
      split
      · simp [value, digitValue_digit n (by assumption)]
      · rw [value_append_digit, ih (n / 10) (by omega), digitValue_digit _ (by omega)]
        omega

theorem ofNat_injective {m n : Nat} (h : ofNat m = ofNat n) : m = n := by
  rw [← value_ofNat m, h, value_ofNat]

theorem ofNat_ne_nil (n : Nat) : ofNat n ≠ [] := by
  rw [ofNat]
  split <;> simp

theorem isDigit_iff {c : Char} : isDigit c = true ↔ 48 ≤ c.toNat ∧ c.toNat ≤ 57 :=
  Bool.and_eq_true_iff.trans (and_congr decide_eq_true_iff decide_eq_true_iff)

theorem isDigit_digit : ∀ n < 10, isDigit (digit n) = true := by
  decide

theorem all_isDigit_ofNat (n : Nat) : (ofNat n).all isDigit = true := by
  induction n using Nat.strongRecOn with
  | ind n ih =>
      rw [ofNat]
      split
      · simp [isDigit_digit n (by assumption)]
      · rw [List.all_append, ih (n / 10) (by omega)]
        simp [isDigit_digit (n % 10) (by omega)]

theorem ofNat_zero : ofNat 0 = ['0'] := by
  rw [ofNat]
  rfl

theorem digit_ne_zero : ∀ n < 10, n ≠ 0 → digit n ≠ '0' := by
  decide

/-- Only zero begins with a zero. -/
theorem ofNat_head {n : Nat} {more : List Char} (h : ofNat n = '0' :: more) : n = 0 := by
  induction n using Nat.strongRecOn generalizing more with
  | ind n ih =>
      rw [ofNat] at h
      split at h
      · next small =>
        exact Classical.byContradiction fun nonzero =>
          digit_ne_zero n small nonzero (List.cons.inj h).1
      · next great =>
        obtain ⟨d, ds, hds⟩ := List.exists_cons_of_ne_nil (ofNat_ne_nil (n / 10))
        rw [hds, List.cons_append, List.cons.injEq] at h
        have zero := ih (n / 10) (by omega) (h.1 ▸ hds)
        omega

theorem value_zeros_append (k : Nat) (ds : List Char) :
    value (List.replicate k '0' ++ ds) = value ds := by
  induction k with
  | zero => rfl
  | succ k ih => exact ih

theorem value_append_zeros (ds : List Char) (k : Nat) :
    value (ds ++ List.replicate k '0') = value ds * 10 ^ k := by
  induction k with
  | zero => simp
  | succ k ih =>
      rw [List.replicate_succ', ← List.append_assoc, value_append_digit, ih]
      calc 10 * (value ds * 10 ^ k) + digitValue '0'
        _ = value ds * 10 ^ k * 10 := Nat.mul_comm ..
        _ = value ds * 10 ^ (k + 1) := Nat.mul_assoc ..

end Digits

namespace Hex

/-- The digits stand at their values, in either case. -/
def Denotes (c : Char) (v : Nat) : Prop :=
  "0123456789abcdef".toList[v]? = some c ∨ "0123456789ABCDEF".toList[v]? = some c

instance (c : Char) (v : Nat) : Decidable (Denotes c v) := inferInstanceAs (Decidable (_ ∨ _))

/-- Two digits, of which the first counts sixteen times. -/
def Pair (high low : Char) (v : UInt8) : Prop :=
  ∃ h l, Denotes high h ∧ Denotes low l ∧ v.toNat = 16 * h + l

/-- One digit that counts seventeen times. -/
def Double (c : Char) (v : UInt8) : Prop := ∃ n, Denotes c n ∧ v.toNat = 17 * n

theorem value?_digit : ∀ n < 16, value? (digit n) = some n := by
  decide

theorem Denotes.lt {c : Char} {v : Nat} (h : Denotes c v) : v < 16 := by
  obtain low | up := h
  · exact (List.getElem?_eq_some_iff.mp low).1
  · exact (List.getElem?_eq_some_iff.mp up).1

theorem value?_of_denotes {c : Char} {v : Nat} (h : Denotes c v) : value? c = some v := by
  have table : ∀ v < 16, ("0123456789abcdef".toList[v]?.bind value?) = some v ∧
      ("0123456789ABCDEF".toList[v]?.bind value?) = some v := by decide
  obtain ⟨lower, upper⟩ := table v h.lt
  obtain low | up := h
  · rwa [low] at lower
  · rwa [up] at upper

theorem lt_of_value? {c : Char} {v : Nat} (h : value? c = some v) : c.toNat < 128 := by
  have code (d : Char) : c ≤ d ↔ c.toNat ≤ d.toNat := Iff.rfl
  simp only [value?, code] at h
  split at h
  · next digit => exact Nat.lt_of_le_of_lt digit.2 (by decide)
  · split at h
    · next lower => exact Nat.lt_of_le_of_lt lower.2 (by decide)
    · split at h
      · next upper => exact Nat.lt_of_le_of_lt upper.2 (by decide)
      · cases h

theorem value?_eq_some {c : Char} {v : Nat} : value? c = some v ↔ Denotes c v := by
  refine ⟨fun h => ?_, value?_of_denotes⟩
  have table : ∀ n < 128, ∀ v ∈ value? (Char.ofNat n), Denotes (Char.ofNat n) v := by decide
  have here := table c.toNat (lt_of_value? h)
  rw [Char.ofNat_toNat] at here
  exact here v h

theorem byte?_eq_some {high low : Char} {v : UInt8} :
    byte? high low = some v ↔ Pair high low v := by
  constructor
  · intro h
    rw [byte?] at h
    split at h
    · next h' l' hh hl =>
      have hd := value?_eq_some.mp hh
      have ld := value?_eq_some.mp hl
      have small : 16 * h' + l' < UInt8.size := by
        have high' := hd.lt
        have low' := ld.lt
        have size : UInt8.size = 256 := rfl
        omega
      rw [← Option.some.inj h]
      exact ⟨h', l', hd, ld, UInt8.toNat_ofNat_of_lt' small⟩
    · cases h
  · rintro ⟨h, l, hh, hl, value⟩
    simp only [byte?, value?_of_denotes hh, value?_of_denotes hl, ← value, UInt8.ofNat_toNat]

theorem Denotes.unique {c : Char} {m n : Nat} (h : Denotes c m) (h' : Denotes c n) : m = n :=
  Option.some.inj ((value?_of_denotes h).symm.trans (value?_of_denotes h'))

theorem double_iff {c : Char} {v : UInt8} : Double c v ↔ Pair c c v := by
  constructor
  · rintro ⟨n, hn, value⟩
    exact ⟨n, n, hn, hn, by omega⟩
  · rintro ⟨h, l, hh, hl, value⟩
    cases hh.unique hl
    exact ⟨h, hh, by omega⟩

theorem pair_byte (v : UInt8) : Pair (digit (v.toNat / 16)) (digit (v.toNat % 16)) v := by
  have below := v.toNat_lt
  refine ⟨v.toNat / 16, v.toNat % 16, ?_, ?_, by omega⟩
  · exact value?_eq_some.mp (value?_digit _ (by omega))
  · exact value?_eq_some.mp (value?_digit _ (by omega))

theorem mem_lower_digit : ∀ n < 16, digit n ∈ "0123456789abcdef".toList := by
  decide

end Hex

end CorrelationPlot
