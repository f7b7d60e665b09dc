import CorrelationPlot.Series.Cell

/-!
Traces of a plot: the markers of one series, or the contour of its density.
-/
namespace CorrelationPlot

structure Marker where
  color : String
  size : UInt32
  opacity : Float
  deriving DecidableEq

def Marker.codec : Json.Codec Marker :=
  Json.Record.codec
    [.required "color" .string, .required "size" .word32, .required "opacity" .float]
    (fun m => (m.color, m.size, m.opacity, ()))
    (fun (color, size, opacity, ()) => ⟨color, size, opacity⟩)

structure ScatterTrace where
  x : List Cell
  y : List Cell
  name : String
  marker : Marker
  xAxis : String
  yAxis : String
  deriving DecidableEq

structure ContourTrace where
  x : List Cell
  y : List Cell
  name : String
  contours : UInt32
  colorScale : String
  reverseScale : Bool
  showScale : Bool
  xAxis : String
  yAxis : String
  deriving DecidableEq

def ScatterTrace.codec : Json.Codec ScatterTrace :=
  Json.Record.codec
    [.required "x" (.list Cell.codec), .required "y" (.list Cell.codec),
      .required "mode" (.word "markers" ()), .required "name" .string,
      .required "marker" Marker.codec, .required "type" (.word "scatter" ()),
      .required "xaxis" .string, .required "yaxis" .string]
    (fun t => (t.x, t.y, (), t.name, t.marker, (), t.xAxis, t.yAxis, ()))
    (fun (x, y, (), name, marker, (), xAxis, yAxis, ()) => ⟨x, y, name, marker, xAxis, yAxis⟩)

def ContourTrace.codec : Json.Codec ContourTrace :=
  Json.Record.codec
    [.required "x" (.list Cell.codec), .required "y" (.list Cell.codec),
      .required "name" .string, .required "ncontours" .word32,
      .required "colorscale" .string, .required "reversescale" .bool,
      .required "showscale" .bool, .required "type" (.word "histogram2dcontour" ()),
      .required "xaxis" .string, .required "yaxis" .string]
    (fun t => (t.x, t.y, t.name, t.contours, t.colorScale, t.reverseScale, t.showScale, (),
      t.xAxis, t.yAxis, ()))
    (fun (x, y, name, contours, colorScale, reverseScale, showScale, (), xAxis, yAxis, ()) =>
      ⟨x, y, name, contours, colorScale, reverseScale, showScale, xAxis, yAxis⟩)

inductive Trace where
  | scatter (t : ScatterTrace)
  | contour (t : ContourTrace)
  deriving DecidableEq

namespace Trace

def x : Trace → List Cell
  | scatter t => t.x
  | contour t => t.x

def y : Trace → List Cell
  | scatter t => t.y
  | contour t => t.y

def name : Trace → String
  | scatter t => t.name
  | contour t => t.name

def xAxis : Trace → String
  | scatter t => t.xAxis
  | contour t => t.xAxis

def yAxis : Trace → String
  | scatter t => t.yAxis
  | contour t => t.yAxis

def toJson : Trace → Json
  | scatter t => ScatterTrace.codec.encode t
  | contour t => ContourTrace.codec.encode t

/-- The kind of a trace is told by its shape. -/
def ofJson? (j : Json) : Option Trace :=
  ((ScatterTrace.codec.ofJson? j).map scatter).or ((ContourTrace.codec.ofJson? j).map contour)

def codec : Json.Codec Trace := .buffered toJson ofJson?

end Trace
end CorrelationPlot
