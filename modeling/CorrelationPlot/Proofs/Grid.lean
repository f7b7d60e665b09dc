import CorrelationPlot.Proofs.Panel

/-!
The grid as a cover. The series take its cells row by row, all rows but the last are full, and no
row could be spared. Its numbers have 64 bits, also for the widest grid that can be asked for.
-/
namespace CorrelationPlot.Grid

/-- Rounding up takes one more than the quotient when something is left over. No sum on the way is
greater than the result. -/
theorem rows_eq (n : Nat) {columns : Nat} (positive : 0 < columns) :
    (n + columns - 1) / columns = n / columns + if n % columns = 0 then 0 else 1 := by
  have split := Nat.div_add_mod n columns
  have small := Nat.mod_lt n positive
  have sum : n + columns - 1 = columns * (n / columns) + (n % columns + columns - 1) := by omega
  rw [sum, Nat.mul_add_div positive]
  congr 1
  by_cases even : n % columns = 0
  · rw [if_pos even]
    exact Nat.div_eq_of_lt (by omega)
  · rw [if_neg even]
    exact Nat.div_eq_of_lt_le (by omega) (by omega)

section Rows
variable {n columns : Nat} {g : Grid}

/-- A row is in the grid exactly when the rows before it do not hold all series. -/
theorem lt_rows_iff (h : forSeries n columns = .ok g) (row : Nat) :
    row < g.rows ↔ row * g.columns < n := by
  obtain ⟨positive, rfl⟩ := forSeries_eq_ok.mp h
  dsimp only
  split
  · subst n
    rw [Nat.add_sub_cancel_left, Nat.div_self positive, Nat.mul_one]
  · rw [← Nat.succ_le_iff, Nat.le_div_iff_mul_le positive, Nat.succ_mul]
    omega

theorem size_lt (h : forSeries n columns = .ok g) (series : n < 2 ^ 63)
    (wide : columns < UInt64.size) : g.size < UInt64.size := by
  have positive := columns_pos h
  have limit : UInt64.size = 2 ^ 64 := rfl
  have width : g.columns < UInt64.size := by
    obtain ⟨-, rfl⟩ := forSeries_eq_ok.mp h
    dsimp only
    split <;> omega
  rw [size]
  rcases Nat.lt_or_ge 1 g.rows with several | single
  · -- The rows before the last are full, and each of them is shorter than the list of series.
    have row : g.columns < n := by simpa using (lt_rows_iff h 1).mp several
    have full := (lt_rows_iff h (g.rows - 1)).mp (by omega)
    rw [Nat.sub_mul, Nat.one_mul] at full
    omega
  · have row : g.rows * g.columns ≤ 1 * g.columns := Nat.mul_le_mul_right _ single
    omega

end Rows

section Cells
variable {g : Grid}

theorem cell_of_number {row column : Nat} (h : column < g.columns) :
    g.cell (row * g.columns + column) = (row, column) := by
  have positive : 0 < g.columns := Nat.zero_lt_of_lt h
  rw [cell, Nat.max_eq_left positive, Nat.add_comm, Nat.add_mul_div_right _ _ positive,
    Nat.div_eq_of_lt h, Nat.zero_add, Nat.add_mul_mod_self_right, Nat.mod_eq_of_lt h]

/-- A later cell stands in a later row, or behind in the same row. -/
theorem cell_order (positive : 0 < g.columns) {i j : Nat} (h : i < j) :
    (g.cell i).1 < (g.cell j).1 ∨
      (g.cell i).1 = (g.cell j).1 ∧ (g.cell i).2 < (g.cell j).2 := by
  have left := cell_number positive i
  have right := cell_number positive j
  have rows : (g.cell i).1 ≤ (g.cell j).1 := Nat.div_le_div_right (Nat.le_of_lt h)
  rcases Nat.lt_or_eq_of_le rows with before | same
  · exact .inl before
  · rw [same] at left
    exact .inr ⟨same, by omega⟩

end Cells

/-- The first `n` cells of the grid, taken row by row, are cells of the grid, and no smaller grid of
this width has as many. -/
structure Covers (g : Grid) (n : Nat) : Prop where
  inside : ∀ i < n, (g.cell i).1 < g.rows ∧ (g.cell i).2 < g.columns
  numbered : ∀ i < n, (g.cell i).1 * g.columns + (g.cell i).2 = i
  apart : ∀ i < n, ∀ j < n, g.cell i = g.cell j → i = j
  rowByRow : ∀ i j, i < j → j < n → (g.cell i).1 < (g.cell j).1 ∨
    (g.cell i).1 = (g.cell j).1 ∧ (g.cell i).2 < (g.cell j).2
  /-- Only the last row can have cells that are left over. -/
  full : ∀ row column, row + 1 < g.rows → column < g.columns → ∃ i < n, g.cell i = (row, column)
  least : ∀ rows < g.rows, rows * g.columns < n
  room : n ≤ g.size

theorem covers_of_forSeries {n columns : Nat} {g : Grid} (h : forSeries n columns = .ok g) :
    g.Covers n where
  inside _ := cell_lt h
  numbered i _ := cell_number (columns_pos h) i
  apart _ _ _ _ := cell_injective g
  rowByRow _ _ before _ := cell_order (columns_pos h) before
  full row column hrow hcolumn := by
    refine ⟨row * g.columns + column, ?_, cell_of_number hcolumn⟩
    have held := (lt_rows_iff h (row + 1)).mp hrow
    rw [Nat.succ_mul] at held
    omega
  least row := (lt_rows_iff h row).mp
  room := le_size h

/-- The grid of `n` series is as wide as asked, or one column for one series, covers the series row
by row with as few rows as will do, and leaves 64 bits neither in its sizes nor on the way there. -/
theorem least_cover (n columns : Nat) (series : n < 2 ^ 63) (positive : 0 < columns)
    (wide : columns < UInt64.size) :
    ∃ g, forSeries n columns = .ok g ∧ g.columns = (if n = 1 then 1 else columns) ∧
      g.rows = n / columns + (if n % columns = 0 then 0 else 1) ∧ g.Covers n ∧
      g.size < UInt64.size := by
  obtain ⟨g, made⟩ : ∃ g, forSeries n columns = .ok g := ⟨_, forSeries_eq_ok.mpr ⟨positive, rfl⟩⟩
  refine ⟨g, made, ?_, ?_, covers_of_forSeries made, size_lt made series wide⟩
  · obtain ⟨-, rfl⟩ := forSeries_eq_ok.mp made
    rfl
  · rw [← rows_eq n positive]
    obtain ⟨-, rfl⟩ := forSeries_eq_ok.mp made
    rfl

/-- Seven series leave two cells of the last row over; the widest grid takes all the series there
can be into one row. -/
theorem seven_and_most_covered :
    (∃ g, forSeries 7 3 = .ok g ∧ g = ⟨3, 3⟩ ∧ g.Covers 7) ∧
      ∃ g, forSeries (2 ^ 63 - 1) (2 ^ 64 - 1) = .ok g ∧ g.rows = 1 ∧ g.columns = 2 ^ 64 - 1 ∧
        g.size < UInt64.size := by
  obtain ⟨g, made, columns, rows, covers, -⟩ :=
    least_cover 7 3 (by decide) (by decide) (by decide)
  obtain ⟨most, made', columns', rows', -, size⟩ :=
    least_cover (2 ^ 63 - 1) (2 ^ 64 - 1) (by decide) (by decide) (by decide)
  refine ⟨⟨g, made, ?_, covers⟩, most, made', rows', columns', size⟩
  cases g
  cases columns
  cases rows
  rfl

end CorrelationPlot.Grid
