import CorrelationPlot.Plot.Document
import CorrelationPlot.Sketch.Density

/-!
A sketch of a plot: one panel for each cell of the grid that has traces with numbers, made of filled
shapes and two axis titles. Only the geometry is decided here; other modules write it as a file.
-/
namespace CorrelationPlot

inductive Shape where
  | rect (x y width height : Int) (opacity : Float) (fill : Rgb)
  | circle (x y radius : Int) (opacity : Float) (fill : Rgb)
  deriving DecidableEq

def Shape.opacity : Shape → Float
  | rect _ _ _ _ o _ => o
  | circle _ _ _ o _ => o

structure PanelDrawing where
  shapes : List Shape
  xTitle : String
  yTitle : String
  deriving DecidableEq

structure Sketch where
  width : Nat
  height : Nat
  background : Rgb
  ink : Rgb
  panels : List PanelDrawing
  deriving DecidableEq

inductive SketchFault where
  | empty (width height : Nat)
  | tooLarge (width height : Nat)
  deriving DecidableEq, Repr

namespace Sketch

def maxSide : Nat := 8192

def densityBins : Nat := 20

def sizeText (width height : Nat) : String := Digits.text width ++ "x" ++ Digits.text height

end Sketch

def SketchFault.message : SketchFault → String
  | .empty width height => "Cannot render a " ++ Sketch.sizeText width height ++ " preview"
  | .tooLarge width height =>
    "Preview of " ++ Sketch.sizeText width height ++ " exceeds the " ++
      Sketch.sizeText Sketch.maxSide Sketch.maxSide ++ " limit"

namespace Sketch

/-- Where the axes of a panel run, in pixels. -/
structure Frame where
  left : Int
  right : Int
  bottom : Int
  top : Int
  deriving DecidableEq, Repr

/-- The start of part `i` when `total` pixels are split into `parts`; the first parts get the pixels
that are left over. -/
def partStart (total parts i : Nat) : Nat := i * (total / parts) + min i (total % parts)

/-- The frame of the panel in a cell, inside its margins and the room for labels. -/
def frame (width height : Nat) (grid : Grid) (row column : Nat) : Frame :=
  { left := partStart width grid.columns column + 50
    right := partStart width grid.columns (column + 1) - 11
    bottom := partStart height grid.rows (row + 1) - 41
    top := partStart height grid.rows row + 10 }

/-- The pairs of cells that are both numbers. -/
def points (t : Trace) : List Density.Point :=
  (t.x.zip t.y).filterMap fun (x, y) =>
    match x.toFloat?, y.toFloat? with
    | some a, some b => some (a, b)
    | _, _ => none

structure Axes where
  x : Interval
  y : Interval

def axes (points : List Density.Point) : Axes :=
  ⟨(Interval.extent (points.map (·.1))).padded, (Interval.extent (points.map (·.2))).padded⟩

def within (lo hi position : Int) : Int := max lo (min hi position)

/-- The pixel of a point. What would lie outside the frame goes to its edge; the frame has one pixel
more than the axes at the right and at the bottom. -/
def pixel (f : Frame) (a : Axes) (p : Density.Point) : Int × Int :=
  (within f.left (f.right + 1) (a.x.pixel f.left f.right p.1),
    within f.top (f.bottom + 1) (a.y.pixel f.bottom f.top p.2))

def rect (a b : Int × Int) (opacity : Float) (fill : Rgb) : Shape :=
  .rect (min a.1 b.1) (min a.2 b.2) (b.1 - a.1).natAbs (b.2 - a.2).natAbs opacity fill

def densityShapes (f : Frame) (a : Axes) (t : ContourTrace) : List Shape :=
  let counts := Density.bins (points (.contour t)) a.x a.y densityBins
  let greatest := counts.flatten.foldl max 0
  let width := (a.x.hi - a.x.lo) / Float.ofNat densityBins
  let height := (a.y.hi - a.y.lo) / Float.ofNat densityBins
  let bin (i j count : Nat) : Option Shape :=
    if count = 0 then none
    else
      let x := a.x.lo + Float.ofNat i * width
      let y := a.y.lo + Float.ofNat j * height
      some (rect (pixel f a (x, y)) (pixel f a (x + width, y + height)) 0.8
        (Density.color count greatest))
  (counts.mapIdx fun i column => (column.mapIdx (bin i)).filterMap id).flatten

def markerShapes (f : Frame) (a : Axes) (t : ScatterTrace) : List Shape :=
  let fill := (Rgb.ofHex? t.marker.color).getD ⟨0, 0, 255⟩
  let radius : Int := max (t.marker.size.toNat / 2) 1
  (points (.scatter t)).map fun p =>
    let (x, y) := pixel f a p
    .circle x y radius t.marker.opacity fill

def traceShapes (f : Frame) (a : Axes) : Trace → List Shape
  | .scatter t => markerShapes f a t
  | .contour t => densityShapes f a t

def panelTraces (doc : PlotDocument) (panel : Nat) : List Trace :=
  doc.traces.filter fun t => Panel.ofAxis? t.xAxis = some panel

/-- The drawing of one panel, unless it has no point. Transparent shapes are not drawn. -/
def drawPanel? (doc : PlotDocument) (width height i : Nat) : Option PanelDrawing :=
  let traces := panelTraces doc i
  let all := traces.flatMap points
  if all.isEmpty then none
  else
    let (row, column) := doc.layout.grid.cell i
    let frame := frame width height doc.layout.grid row column
    let shapes := traces.flatMap (traceShapes frame (axes all))
    some {
      shapes := shapes.filter fun s => !(s.opacity == 0)
      xTitle := doc.layout.xTitle
      yTitle := doc.layout.yTitle }

def drawPanels (doc : PlotDocument) (width height : Nat) : List PanelDrawing :=
  if doc.traces.isEmpty then []
  else (List.range doc.layout.grid.size).filterMap (drawPanel? doc width height)

/-- The sketch of a document. A size pinned in the layout wins over the one asked for. -/
def draw (doc : PlotDocument) (width height : Nat) : Except SketchFault Sketch :=
  let width := (doc.layout.width.map UInt32.toNat).getD width
  let height := (doc.layout.height.map UInt32.toNat).getD height
  if width = 0 ∨ height = 0 then .error (.empty width height)
  else if maxSide < width ∨ maxSide < height then .error (.tooLarge width height)
  else .ok {
    width, height
    background := (Rgb.ofHex? doc.layout.paperBackground).getD ⟨255, 255, 255⟩
    ink := (Rgb.ofHex? doc.layout.fontColor).getD ⟨0, 0, 0⟩
    panels := drawPanels doc width height }

end Sketch
end CorrelationPlot
