import CorrelationPlot.Panel
import CorrelationPlot.Proofs.Characters

/-!
Panels are told apart by their number: every number has its own cell of the grid and its own axis
ids, and the cells of the series of a table lie within the grid made for them.
-/
namespace CorrelationPlot

namespace Grid

theorem forSeries_eq_ok {n columns : Nat} {g : Grid} : forSeries n columns = .ok g ↔
    0 < columns ∧ g = ⟨(n + columns - 1) / columns, if n = 1 then 1 else columns⟩ := by
  rw [forSeries]
  split
  · next zero => simp [zero]
  · next wide => simp [Nat.pos_of_ne_zero wide, eq_comm]

theorem cell_injective (g : Grid) {i j : Nat} (h : g.cell i = g.cell j) : i = j := by
  simp only [cell, Prod.mk.injEq] at h
  rw [← Nat.div_add_mod i (max g.columns 1), h.1, h.2, Nat.div_add_mod]

/-- The rows are counted with the width that was asked for, also where the grid is narrower: a
single series stands in the only cell. -/
theorem cell_lt {n columns : Nat} {g : Grid} (h : forSeries n columns = .ok g) {i : Nat}
    (hi : i < n) : (g.cell i).1 < g.rows ∧ (g.cell i).2 < g.columns := by
  obtain ⟨positive, rfl⟩ := forSeries_eq_ok.mp h
  simp only [cell]
  split
  · subst n
    have hi : i = 0 := by omega
    subst i
    refine ⟨?_, by simp⟩
    apply Nat.div_pos <;> omega
  · rw [Nat.max_eq_left positive]
    refine ⟨?_, Nat.mod_lt _ positive⟩
    rw [Nat.lt_div_iff_mul_lt positive]
    have low := Nat.div_mul_le_self i columns
    omega

theorem columns_pos {n columns : Nat} {g : Grid} (h : forSeries n columns = .ok g) :
    0 < g.columns := by
  obtain ⟨positive, rfl⟩ := forSeries_eq_ok.mp h
  dsimp only
  split <;> omega

/-- The cells are numbered row by row. -/
theorem cell_number {g : Grid} (positive : 0 < g.columns) (i : Nat) :
    (g.cell i).1 * g.columns + (g.cell i).2 = i := by
  rw [cell, Nat.max_eq_left positive]
  exact Nat.div_add_mod' i g.columns

theorem le_size {n columns : Nat} {g : Grid} (h : forSeries n columns = .ok g) :
    n ≤ g.rows * g.columns := by
  obtain ⟨positive, rfl⟩ := forSeries_eq_ok.mp h
  have covered := Nat.lt_div_mul_add positive (a := n + columns - 1)
  dsimp only
  split
  · subst n
    have row : 0 < (1 + columns - 1) / columns := Nat.div_pos (by omega) positive
    omega
  · omega

end Grid

namespace Panel

theorem axisId_injective {letter letter' : Char} {i j : Nat}
    (h : axisId letter i = axisId letter' j) : letter = letter' ∧ i = j := by
  have chars := congrArg String.toList h
  simp only [axisId, String.toList_ofList] at chars
  split at chars <;> split at chars <;> simp only [List.cons.injEq] at chars
  · exact ⟨chars.1, by omega⟩
  · exact absurd chars.2.symm (Digits.ofNat_ne_nil _)
  · exact absurd chars.2 (Digits.ofNat_ne_nil _)
  · have same := Digits.ofNat_injective chars.2
    exact ⟨chars.1, by omega⟩

theorem number?_digits {ds : List Char} (filled : ds ≠ []) (digits : ds.all Digits.isDigit = true)
    (fits : Digits.value ds < UInt64.size) : number? ds = some (Digits.value ds) := by
  cases ds with
  | nil => contradiction
  | cons d ds =>
      have unsigned : d ≠ '+' := by
        rintro rfl
        cases digits
      simp [number?, unsigned, digits, fits]

theorem number?_ofNat {n : Nat} (h : n < UInt64.size) : number? (Digits.ofNat n) = some n := by
  rw [number?_digits (Digits.ofNat_ne_nil n) (Digits.all_isDigit_ofNat n), Digits.value_ofNat]
  rwa [Digits.value_ofNat]

/-- The id of an x axis leads back to its panel, as long as its number has 64 bits. -/
theorem ofAxis?_axes {i : Nat} (h : i + 1 < UInt64.size) : ofAxis? (axes i).1 = some i := by
  cases i with
  | zero => rfl
  | succ i =>
      obtain ⟨d, ds, hds⟩ := List.exists_cons_of_ne_nil (Digits.ofNat_ne_nil (i + 1 + 1))
      have number := number?_ofNat h
      simp only [ofAxis?, axes, axisId, String.toList_ofList, if_neg (Nat.succ_ne_zero i)]
      rw [hds] at number ⊢
      simp [number]

end Panel
end CorrelationPlot
