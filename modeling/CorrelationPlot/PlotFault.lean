import CorrelationPlot.Text.Characters

/-!
Why no plot can be made from given data and settings.
-/
namespace CorrelationPlot

/-- The two sides of a correlation. -/
inductive Axis where
  | x
  | y
  deriving DecidableEq, Repr

def Axis.name : Axis → String
  | .x => "x"
  | .y => "y"

inductive PlotFault where
  /-- No column has the name of the field. -/
  | unknownField (field : String) (available : List String)
  | unselected (axis : Axis)
  /-- A row of a series ends before the column. -/
  | shortRow (series row column width : Nat)
  | badColor (text : String)
  | noColumns
  deriving DecidableEq, Repr

def PlotFault.message : PlotFault → String
  | .unknownField field available =>
    "field '" ++ field ++ "' not found (available columns: " ++ ", ".intercalate available ++ ")"
  | .unselected axis => "no field selected for the " ++ axis.name ++ " axis"
  | .shortRow series row column width =>
    "row " ++ Digits.text row ++ " of group " ++ Digits.text series ++ " has " ++
      Digits.text width ++ " cells, column " ++ Digits.text column ++ " requested"
  | .badColor text => "invalid color: " ++ text
  | .noColumns => "grid must have at least one column"

end CorrelationPlot
