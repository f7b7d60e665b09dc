import CorrelationPlot.Palette
import CorrelationPlot.Plot.Document
import CorrelationPlot.Settings

/-!
The plot of a table: one panel for each series, with the markers of its rows and, for a density, the
contour over them. A plot depends on the first table only.
-/
namespace CorrelationPlot

structure Prepared where
  traces : List Trace
  grid : Grid
  placements : List Placement
  deriving DecidableEq

structure Columns where
  x : Nat
  y : Nat
  deriving DecidableEq, Repr

namespace Prepared

def untagged : String := "density"

def selected (axis : Axis) : Option Selector → Except PlotFault Selector
  | some f => .ok f
  | none => .error (.unselected axis)

def columns (t : Table) (view : View) : Except PlotFault Columns := do
  let x ← (← selected .x view.xField).column t.headers
  let y ← (← selected .y view.yField).column t.headers
  .ok ⟨x, y⟩

/-- The cells of one column, from the row with number `row` on. -/
def projectFrom (series column : Nat) : Nat → List Row → Except PlotFault (List Cell)
  | _, [] => .ok []
  | row, r :: rows =>
    match r[column]? with
    | some c => (projectFrom series column (row + 1) rows).map (c :: ·)
    | none => .error (.shortRow series row column r.length)

def project (series : Nat) (rows : List Row) (column : Nat) : Except PlotFault (List Cell) :=
  projectFrom series column 0 rows

/-- The markers of series `i`, in the colour of its place on the ramp. -/
def scatter (i : Nat) (s : Series) (display : Display) (x y : List Cell) : ScatterTrace :=
  let (size, opacity) := display.markerStyle
  { x, y
    name := s.nameOr untagged
    marker := ⟨(Ramp.ofSeries i).hex, size, opacity⟩
    xAxis := (Panel.axes i).1
    yAxis := (Panel.axes i).2 }

def contour (i : Nat) (s : Series) (x y : List Cell) : ContourTrace :=
  { x, y
    name := s.nameOr untagged
    contours := 20
    colorScale := "Hot"
    reverseScale := true
    showScale := false
    xAxis := (Panel.axes i).1
    yAxis := (Panel.axes i).2 }

def seriesTraces (i : Nat) (s : Series) (columns : Columns) (display : Display) :
    Except PlotFault (List Trace) := do
  let x ← project i s.rows columns.x
  let y ← project i s.rows columns.y
  let markers := Trace.scatter (scatter i s display x y)
  .ok (if display.isDensity then [markers, .contour (contour i s x y)] else [markers])

/-- The traces of all series, of which the first has number `i`. -/
def tracesFrom (columns : Columns) (display : Display) :
    Nat → List Series → Except PlotFault (List Trace)
  | _, [] => .ok []
  | i, s :: rest => do
    let ts ← seriesTraces i s columns display
    let more ← tracesFrom columns display (i + 1) rest
    .ok (ts ++ more)

def placement (grid : Grid) (i : Nat) (s : Series) : Placement :=
  { series := i
    name := s.nameOr untagged
    xAxis := (Panel.axes i).1
    yAxis := (Panel.axes i).2
    row := (grid.cell i).1
    column := (grid.cell i).2 }

/-- The plot of the first table. Without a table, or in a table without series, there is nothing to
plot and no field is looked up. -/
def ofTables (tables : List Table) (view : View) (fixedColumns : Nat) :
    Except PlotFault Prepared := do
  match tables with
  | [] => .ok ⟨[], ← Grid.forSeries 0 fixedColumns, []⟩
  | t :: _ =>
    let grid ← Grid.forSeries t.series.length fixedColumns
    if t.series = [] then .ok ⟨[], grid, []⟩
    else
      let columns ← columns t view
      let traces ← tracesFrom columns view.display 0 t.series
      .ok ⟨traces, grid, t.series.mapIdx (placement grid)⟩

end Prepared
end CorrelationPlot
