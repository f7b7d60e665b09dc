import CorrelationPlot.PlotFault

/-!
The grid of panels, filled row by row, and the ids that bind a series to the axes of its panel.
-/
namespace CorrelationPlot

structure Grid where
  rows : Nat
  columns : Nat
  deriving DecidableEq, Repr

namespace Grid

/-- The grid for `n` series that wraps after `columns` panels. A single series gets one column, else
the grid is as wide as asked. -/
def forSeries (n columns : Nat) : Except PlotFault Grid :=
  if columns = 0 then .error .noColumns
  else .ok ⟨(n + columns - 1) / columns, if n = 1 then 1 else columns⟩

def size (g : Grid) : Nat := g.rows * g.columns

def cell (g : Grid) (i : Nat) : Nat × Nat := (i / max g.columns 1, i % max g.columns 1)

end Grid

namespace Panel

/-- The first panel's axes have bare letters, the others a number that counts from one. -/
def axisId (letter : Char) (i : Nat) : String :=
  String.ofList (if i = 0 then [letter] else letter :: Digits.ofNat (i + 1))

def axes (i : Nat) : String × String := (axisId 'x' i, axisId 'y' i)

/-- An unsigned number of 64 bits, after an optional plus sign. -/
def number? (cs : List Char) : Option Nat :=
  let ds := match cs with
    | '+' :: rest => rest
    | _ => cs
  if ds ≠ [] ∧ ds.all Digits.isDigit ∧ Digits.value ds < UInt64.size then some (Digits.value ds)
  else none

/-- The panel that an x axis id selects. -/
def ofAxis? (id : String) : Option Nat :=
  match id.toList with
  | ['x'] => some 0
  | 'x' :: suffix =>
    match number? suffix with
    | some n => if 2 ≤ n then some (n - 1) else none
    | none => none
  | _ => none

end Panel
end CorrelationPlot
