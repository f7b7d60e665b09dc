import CorrelationPlot.Panel
import CorrelationPlot.Plot.Trace

/-!
The plot document: the traces, the layout of their panels, and the switches of the renderer.
-/
namespace CorrelationPlot

structure Layout where
  grid : Grid := ⟨2, 2⟩
  pattern : String := "independent"
  xTitle : String := ""
  yTitle : String := ""
  fontColor : String := "#FFF"
  autosize : Bool := true
  plotBackground : String := "#fff"
  paperBackground : String := "#fff"
  width : Option UInt32 := none
  height : Option UInt32 := none
  deriving DecidableEq, Repr

namespace Layout

def textIn (name : String) : Json.Codec String :=
  Json.Record.codec [.required name .string] (fun s => (s, ())) (fun (s, ()) => s)

/-- The title of an axis, two objects deep. -/
def axisTitle : Json.Codec String :=
  Json.Record.codec [.required "title" (textIn "text")] (fun s => (s, ())) (fun (s, ()) => s)

def gridCodec : Json.Codec (Grid × String) :=
  Json.Record.codec
    [.required "rows" .count, .required "columns" .count, .required "pattern" .string]
    (fun (g, pattern) => (g.rows, g.columns, pattern, ()))
    (fun (rows, columns, pattern, ()) => (⟨rows, columns⟩, pattern))

def codec : Json.Codec Layout :=
  Json.Record.codec
    [.required "grid" gridCodec, .required "xaxis" axisTitle, .required "yaxis" axisTitle,
      .required "font" (textIn "color"), .required "autosize" .bool,
      .required "plot_bgcolor" .string, .required "paper_bgcolor" .string,
      .omitted "width" .word32, .omitted "height" .word32]
    (fun l => ((l.grid, l.pattern), l.xTitle, l.yTitle, l.fontColor, l.autosize,
      l.plotBackground, l.paperBackground, l.width, l.height, ()))
    (fun ((grid, pattern), xTitle, yTitle, fontColor, autosize, plot, paper, width, height, ()) =>
      ⟨grid, pattern, xTitle, yTitle, fontColor, autosize, plot, paper, width, height⟩)

end Layout

structure RenderSwitches where
  removedButtons : List String := ["lasso2d", "select2d", "toggleSpikelines", "toImage"]
  displayLogo : Bool := false
  displayModeBar : Bool := false
  responsive : Bool := true
  deriving DecidableEq, Repr

def RenderSwitches.codec : Json.Codec RenderSwitches :=
  Json.Record.codec
    [.required "modeBarButtonsToRemove" (.list .string), .required "displaylogo" .bool,
      .required "displayModeBar" .bool, .required "responsive" .bool]
    (fun r => (r.removedButtons, r.displayLogo, r.displayModeBar, r.responsive, ()))
    (fun (buttons, logo, modeBar, responsive, ()) => ⟨buttons, logo, modeBar, responsive⟩)

/-- Where a series stands in the grid. -/
structure Placement where
  series : Nat
  name : String
  xAxis : String
  yAxis : String
  row : Nat
  column : Nat
  deriving DecidableEq, Repr

def Placement.codec : Json.Codec Placement :=
  Json.Record.codec
    [.required "group" .count, .required "name" .string, .required "xaxis" .string,
      .required "yaxis" .string, .required "row" .count, .required "column" .count]
    (fun p => (p.series, p.name, p.xAxis, p.yAxis, p.row, p.column, ()))
    (fun (series, name, xAxis, yAxis, row, column, ()) =>
      ⟨series, name, xAxis, yAxis, row, column⟩)

structure PlotDocument where
  traces : List Trace
  layout : Layout
  switches : RenderSwitches
  deriving DecidableEq

def PlotDocument.codec : Json.Codec PlotDocument :=
  Json.Record.codec
    [.required "data" (.list Trace.codec), .required "layout" Layout.codec,
      .required "config" RenderSwitches.codec]
    (fun p => (p.traces, p.layout, p.switches, ()))
    (fun (traces, layout, switches, ()) => ⟨traces, layout, switches⟩)

end CorrelationPlot
