import CorrelationPlot.Plot.Prepared

/-!
A live chart. Events change its state one after the other: data replace the plot as a whole, a
refresh copies colours, titles and the grid into the layout, a resize pins the size, and a change of
the fields on offer may move a selection. Some events leave entries in a log.
-/
namespace CorrelationPlot

inductive Stage where
  | idle
  | loading
  | chart
  | noData
  deriving DecidableEq, Repr

structure Chart where
  settings : Settings
  offer : Offer
  traces : List Trace
  placements : List Placement
  grid : Grid
  layout : Layout
  switches : RenderSwitches
  stage : Stage
  deriving DecidableEq

inductive LogEntry where
  | prepared (series traces rows columns : Nat)
  | refreshed (series traces : Nat)
  | substituted (axis : Axis) (before after : Option Selector)
  deriving DecidableEq, Repr

namespace Chart

inductive Event where
  /-- Data have been asked for. -/
  | loading
  | data (tables : List Table)
  | refresh
  | resize (width height : UInt32)
  | fields (added removed : List Selector)

/-- The state after an event, what was logged, and why data were refused. -/
structure Response where
  chart : Chart
  log : List LogEntry := []
  fault : Option PlotFault := none

def new (settings : Settings) (offer : Offer) : Chart :=
  { settings, offer
    traces := []
    placements := []
    grid := ⟨2, settings.columns.toNat⟩
    layout := {}
    switches := {}
    stage := .idle }

def title (field : Option Selector) : String := (field.map (·.fullName)).getD ""

/-- Copies the appearance, the titles and the grid into the layout. -/
def refresh (c : Chart) : Chart :=
  { c with
    layout := { c.layout with
      paperBackground := c.settings.appearance.background
      plotBackground := c.settings.appearance.background
      fontColor := c.settings.appearance.text
      xTitle := title c.settings.view.xField
      yTitle := title c.settings.view.yField
      grid := c.grid
      pattern := "independent" } }

def resize (c : Chart) (width height : UInt32) : Chart :=
  { c with
    layout := { c.layout with autosize := false, width := some width, height := some height } }

def showPlot (c : Chart) (p : Prepared) : Chart :=
  refresh { c with
    traces := p.traces
    placements := p.placements
    grid := p.grid
    stage := if p.placements = [] then .noData else .chart }

def plotLog (p : Prepared) : List LogEntry :=
  let series := p.placements.length
  let traces := p.traces.length
  let refreshed := LogEntry.refreshed series traces
  if p.placements = [] then [refreshed]
  else [.prepared series traces p.grid.rows p.grid.columns, refreshed]

/-- Data that cannot be plotted leave the chart as it was. -/
def receive (c : Chart) (tables : List Table) : Response :=
  match Prepared.ofTables tables c.settings.view c.settings.columns.toNat with
  | .ok p => { chart := c.showPlot p, log := plotLog p }
  | .error f => { chart := c, fault := some f }

/-- A selection after a change of the offer, among the numeric fields. -/
def reselect (c : Chart) (added removed : List Selector) (selection : Option Selector) :
    Option Selector :=
  substitute selection c.offer.numeric added removed (·.isNumeric)

def substitution (axis : Axis) (before after : Option Selector) : List LogEntry :=
  if before = after then [] else [.substituted axis before after]

def updateFields (c : Chart) (added removed : List Selector) : Response :=
  let view := c.settings.view
  let x := c.reselect added removed view.xField
  let y := c.reselect added removed view.yField
  { chart := { c with
      settings := { c.settings with view := { view with xField := x, yField := y } }
      offer := c.offer.change added removed }
    log := substitution .x view.xField x ++ substitution .y view.yField y }

def step (c : Chart) : Event → Response
  | .loading => { chart := { c with stage := .loading } }
  | .data tables => c.receive tables
  | .refresh => { chart := c.refresh }
  | .resize width height => { chart := c.resize width height }
  | .fields added removed => c.updateFields added removed

def run (c : Chart) (events : List Event) : Chart := events.foldl (fun c e => (c.step e).chart) c

def document (c : Chart) : PlotDocument := ⟨c.traces, c.layout, c.switches⟩

end Chart
end CorrelationPlot
