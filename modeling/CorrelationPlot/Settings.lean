import CorrelationPlot.Field.Offer
import CorrelationPlot.Script.Whole

/-!
The settings of a chart: which fields it correlates, how it is drawn and coloured, and how its
panels are laid out. Settings are stored as JSON or made from a script and the fields on offer.
-/
namespace CorrelationPlot

/-- How a series is drawn. A stored name that is not known draws plain markers and is kept. -/
inductive Display where
  | density
  | scatter
  | other (name : String)
  deriving DecidableEq, Repr

namespace Display

def ofName (name : String) : Display :=
  if name = "Density" then density else if name = "Scatter" then scatter else other name

def name : Display → String
  | density => "Density"
  | scatter => "Scatter"
  | other name => name

def isDensity (d : Display) : Bool := d = density

/-- Size and opacity of the markers, which are small and translucent over a density. -/
def markerStyle (d : Display) : UInt32 × Float := if d.isDensity then (2, 0.4) else (5, 0.9)

def codec : Json.Codec Display := Json.Codec.string.imap ofName name

end Display

/-- What is plotted. -/
structure View where
  xField : Option Selector := none
  yField : Option Selector := none
  display : Display := .scatter
  deriving DecidableEq, Repr

def View.codec : Json.Codec View :=
  Json.Record.codec
    [.withDefault "firstField" (.option Selector.codec) none,
      .withDefault "secondField" (.option Selector.codec) none,
      .withDefault "displayType" Display.codec .scatter]
    (fun v => (v.xField, v.yField, v.display, ()))
    (fun (x, y, display, ()) => ⟨x, y, display⟩)

structure Appearance where
  background : String := "#fff"
  text : String := "#FFF"
  deriving DecidableEq, Repr

def Appearance.codec : Json.Codec Appearance :=
  Json.Record.codec
    [.withDefault "backgroundColor" .string "#fff", .withDefault "textColor" .string "#FFF"]
    (fun a => (a.background, a.text, ()))
    (fun (background, text, ()) => ⟨background, text⟩)

structure Settings where
  view : View := {}
  appearance : Appearance := {}
  columns : UInt64 := 2
  /-- The size to which the chart is pinned once it is drawn. -/
  size : Option (UInt32 × UInt32) := none
  deriving DecidableEq, Repr

namespace Settings

def codec : Json.Codec Settings :=
  Json.Record.codec
    [.withDefault "visualizationConfig" View.codec {},
      .withDefault "baseAppearanceConfig" Appearance.codec {},
      .withDefault "fixedColNo" .word64 2,
      .omitted "size" (.pair .word32 .word32)]
    (fun s => (s.view, s.appearance, s.columns, s.size, ()))
    (fun (view, appearance, columns, size, ()) => ⟨view, appearance, columns, size⟩)

def ofText (text : String) : Except Json.Fault Settings := codec.ofText text

/-- The message of a text that holds no settings. -/
def faultMessage : String := "Failed to parse widget configuration"

def lookUp (offer : Offer) (name : String) : Except PlotFault Selector :=
  match offer.lookUp? name with
  | some f => .ok f
  | none => .error (.unknownField name offer.names)

/-- The settings that a script asks for. What it leaves open has the default. -/
def ofScript (script : Script) (offer : Offer) : Except PlotFault Settings := do
  let x ← lookUp offer script.chart.x
  let y ← lookUp offer script.chart.y
  let standard : Appearance := {}
  .ok {
    view := ⟨some x, some y, (script.chart.display.map Display.ofName).getD .scatter⟩
    appearance :=
      ⟨(script.appearance.bind (·.background)).getD standard.background,
        (script.appearance.bind (·.text)).getD standard.text⟩
    columns := script.columns.getD 2
    size := script.size }

end Settings
end CorrelationPlot
