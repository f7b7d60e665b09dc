import CorrelationPlot.Proofs.Chart.Coherence
import CorrelationPlot.Proofs.Chart.History
import CorrelationPlot.Proofs.Sketch.Drawing

/-!
The panels of a sketch. The sketch finds the traces of a panel by the ids of their axes and knows
nothing else of the plot; still every panel shows its own series, and no trace is lost.
-/
namespace CorrelationPlot
namespace Sketch
open Prepared

/-- The circles of a panel. A panel without numbers is not drawn and has none. -/
def circles (panel : Option PanelDrawing) : List Shape :=
  (drawnShapes panel).filter Shape.isCircle

theorem xAxis_of_drawn {cs : Columns} {display : Display} {i : Nat} {s : Series} {t : Trace}
    (h : t ∈ drawn cs display i s) : t.xAxis = (Panel.axes i).1 := by
  rw [drawn, List.mem_cons] at h
  rcases h with rfl | h
  · rfl
  · split at h
    · rw [List.mem_singleton.mp h]
      rfl
    · cases h

/-- A panel shows the block of its series; panels behind the last series show nothing. -/
theorem panelTraces_of_series {doc : PlotDocument} {cs : Columns} {display : Display}
    {ss : List Series} (h : doc.traces = (ss.mapIdx (drawn cs display)).flatten)
    (counted : ss.length < UInt64.size) (i : Nat) :
    panelTraces doc i = (ss.mapIdx (drawn cs display))[i]?.getD [] := by
  have keys : ∀ j b, (ss.mapIdx (drawn cs display))[j]? = some b → ∀ t ∈ b,
      Panel.ofAxis? t.xAxis = some (0 + j) := by
    intro j b hb t ht
    rw [List.getElem?_mapIdx, Option.map_eq_some_iff] at hb
    obtain ⟨s, hs, rfl⟩ := hb
    obtain ⟨hj, -⟩ := List.getElem?_eq_some_iff.mp hs
    rw [xAxis_of_drawn ht, Panel.ofAxis?_axes (by omega), Nat.zero_add]
  have selected := filter_flatten_of_key keys i
  rwa [Nat.zero_add, ← h] at selected

/-- The sketch of some series has the shapes of one series behind those of another. -/
theorem shapes_drawPanels {doc : PlotDocument} {cs : Columns} {display : Display}
    {ss : List Series} (h : doc.traces = (ss.mapIdx (drawn cs display)).flatten)
    (counted : ss.length < UInt64.size) (reached : ∀ s ∈ ss, Reached cs s.rows)
    (room : ss.length ≤ doc.layout.grid.size) (width height : Nat) :
    (drawPanels doc width height).map (·.shapes) =
      (ss.mapIdx (seriesShapes cs display doc.layout.grid width height)).filter (· ≠ []) := by
  have each (i : Nat) : (drawPanel? doc width height i).map (·.shapes) =
      (ss.mapIdx (seriesShapes cs display doc.layout.grid width height))[i]?.bind
        (Option.guard (· ≠ [])) := by
    have here := panelTraces_of_series h counted i
    rw [List.getElem?_mapIdx] at here ⊢
    cases hs : ss[i]? with
    | none =>
        rw [hs] at here
        have missing : drawPanel? doc width height i = none :=
          drawPanel?_eq_none.mpr fun t ht => by rw [here] at ht; cases ht
        rw [missing]
        rfl
    | some s =>
        rw [hs] at here
        exact shapes_of_series here (reached s (List.mem_of_getElem? hs)) width height
  rw [drawPanels_eq, List.map_filterMap]
  simp only [each]
  rw [filterMap_range_getElem? (by rwa [List.length_mapIdx]), List.filterMap_eq_filter]

end Sketch

namespace Chart

/-- A chart with traces has accepted data, and holds the blocks of their series. -/
theorem blocks_of_run (settings : Settings) (offer : Offer) (events : List Event)
    (plotted : ((new settings offer).run events).traces ≠ []) :
    ∃ past t others future cs, events = past ++ .data (t :: others) :: future ∧
      AllRefused ((new settings offer).run (past ++ [.data (t :: others)])) future ∧
      Prepared.columns t ((new settings offer).run past).settings.view = .ok cs ∧
      (∀ s ∈ t.series, Prepared.Reached cs s.rows) ∧
      Grid.forSeries t.series.length settings.columns.toNat =
        .ok ((new settings offer).run events).grid ∧
      ((new settings offer).run events).traces =
        (t.series.mapIdx (Prepared.drawn cs settings.view.display)).flatten ∧
      ((new settings offer).run events).placements =
        t.series.mapIdx (Prepared.placement ((new settings offer).run events).grid) := by
  rcases holdsLastAccepted (new settings offer) events with
    ⟨-, first⟩ | ⟨past, tables, future, p, split, hp, later, last⟩
  · exact absurd (congrArg Prepared.traces first) plotted
  · have display := (coherent_run settings offer past).display
    have columns := (coherent_run settings offer past).columns
    rw [prepare, columns] at hp
    rcases Prepared.ofTables_eq_ok hp with
      ⟨-, grid, -, rfl⟩ | ⟨t, others, grid, cs, rfl, -, hgrid, hcs, reached, rfl⟩
    · exact absurd (congrArg Prepared.traces last) plotted
    · rw [display] at last
      obtain rfl : ((new settings offer).run events).grid = grid := congrArg Prepared.grid last
      exact ⟨past, t, others, future, cs, split, later, hcs, reached, hgrid,
        congrArg Prepared.traces last, congrArg Prepared.placements last⟩

/-- Panel `i` of the sketch shows the traces of series `i` and no others, with a circle for each of
its rows that holds two numbers, and the cells behind the last series stay empty. So the sketch has
the shapes of the series one behind the other; only a series without such rows has no panel in it.
That the panels are numbered with 64 bits is no restriction for lists in a memory. -/
theorem panels_show_series (settings : Settings) (offer : Offer) (events : List Event)
    (plotted : ((new settings offer).run events).traces ≠ [])
    (counted : ((new settings offer).run events).placements.length < UInt64.size) :
    let c := (new settings offer).run events
    let grid := c.document.layout.grid
    ∃ past t others future cs, events = past ++ .data (t :: others) :: future ∧
      AllRefused ((new settings offer).run (past ++ [.data (t :: others)])) future ∧
      Prepared.columns t ((new settings offer).run past).settings.view = .ok cs ∧
      c.document.traces = (t.series.mapIdx (Prepared.drawn cs settings.view.display)).flatten ∧
      c.placements.length = t.series.length ∧
      (∀ i s, t.series[i]? = some s → ∃ q, c.placements[i]? = some q ∧
        i < grid.rows * grid.columns ∧ q.row * grid.columns + q.column = i ∧
        Sketch.panelTraces c.document i = Prepared.drawn cs settings.view.display i s ∧
        ∀ width height,
          let shapes := Sketch.seriesShapes cs settings.view.display grid width height i s
          Sketch.drawnShapes (Sketch.drawPanel? c.document width height i) = shapes ∧
          (shapes = [] ↔ s.rows.filterMap cs.numbers = []) ∧
          ∃ a radius opacity fill,
            Sketch.circles (Sketch.drawPanel? c.document width height i) =
              (s.rows.filterMap cs.numbers).map fun p =>
                let (x, y) := Sketch.pixel (Sketch.frame width height grid q.row q.column) a p
                .circle x y radius opacity fill) ∧
      (∀ i, c.placements.length ≤ i → i < grid.rows * grid.columns →
        Sketch.panelTraces c.document i = []) ∧
      (List.range (grid.rows * grid.columns)).flatMap (Sketch.panelTraces c.document) =
        c.document.traces ∧
      ∀ width height,
        let shapes width height := (t.series.mapIdx
          (Sketch.seriesShapes cs settings.view.display grid width height)).filter (· ≠ [])
        let size := Sketch.sides c.document width height
        (Sketch.drawPanels c.document width height).map (·.shapes) = shapes width height ∧
        (Sketch.Drawable size → ∃ sketch, Sketch.draw c.document width height = .ok sketch ∧
          (sketch.width, sketch.height) = size ∧
          sketch.panels.map (·.shapes) = shapes size.1 size.2) := by
  intro c grid
  obtain ⟨past, t, others, future, cs, split, later, hcs, reached, hgrid, traces, placements⟩ :=
    blocks_of_run settings offer events plotted
  have length : c.placements.length = t.series.length := by rw [placements, List.length_mapIdx]
  have filled : c.placements ≠ [] := by
    intro none
    rw [none, List.length_nil, eq_comm, List.length_eq_zero_iff] at length
    rw [length] at traces
    exact plotted traces
  -- The sketch works with the grid of the layout, the plot was placed in that of the chart.
  have shown : ((new settings offer).run events).grid = grid :=
    ((coherent_run settings offer events).shown filled).symm
  rw [shown] at hgrid placements
  have few : t.series.length < UInt64.size := length ▸ counted
  have panel : Sketch.panelTraces c.document =
      fun i => (t.series.mapIdx (Prepared.drawn cs settings.view.display))[i]?.getD [] :=
    funext (Sketch.panelTraces_of_series traces few)
  have room : t.series.length ≤ grid.rows * grid.columns := Grid.le_size hgrid
  have whole (width height : Nat) : (Sketch.drawPanels c.document width height).map (·.shapes) =
      (t.series.mapIdx (Sketch.seriesShapes cs settings.view.display grid width height)).filter
        (· ≠ []) := Sketch.shapes_drawPanels traces few reached room width height
  refine ⟨past, t, others, future, cs, split, later, hcs, traces, length, ?_, ?_, ?_, ?_⟩
  · intro i s hs
    obtain ⟨hi, -⟩ := List.getElem?_eq_some_iff.mp hs
    have hq : c.placements[i]? = some (Prepared.placement grid i s) := by
      rw [placements, List.getElem?_mapIdx, hs]
      rfl
    have here : Sketch.panelTraces c.document i =
        Prepared.drawn cs settings.view.display i s := by
      simp only [panel, List.getElem?_mapIdx, hs, Option.map_some, Option.getD_some]
    have wide : Prepared.Reached cs s.rows := reached s (List.mem_of_getElem? hs)
    refine ⟨_, hq, by omega, Grid.cell_number (Grid.columns_pos hgrid) i, here, ?_⟩
    intro width height shapes
    have drawn : Sketch.drawnShapes (Sketch.drawPanel? c.document width height i) = shapes :=
      Sketch.drawnShapes_of_series here width height
    rw [Sketch.circles, drawn]
    exact ⟨rfl, Sketch.seriesShapes_eq_nil wide grid width height,
      Sketch.circles_of_series settings.view.display i wide grid width height⟩
  · intro i behind _
    simp only [panel]
    rw [List.getElem?_eq_none (by rw [List.length_mapIdx]; omega), Option.getD_none]
  · rw [panel, flatMap_range_getElem? (by rwa [List.length_mapIdx]), ← traces]
    rfl
  · intro width height shapes size
    exact ⟨whole width height, fun fits => ⟨_, Sketch.draw_eq_ok.mpr ⟨fits, rfl⟩, rfl,
      whole size.1 size.2⟩⟩

/-- The chart of the pumps after it was resized. -/
def resizedPumps : Chart :=
  (new { view := Prepared.pumpsView } []).run [.data [Prepared.pumps], .resize 640 480]

theorem pumps_panels : resizedPumps.traces ≠ [] ∧ resizedPumps.placements.length < UInt64.size ∧
    (Sketch.panelTraces resizedPumps.document 0).length = 2 ∧
    (List.range 2).flatMap (Sketch.panelTraces resizedPumps.document) = resizedPumps.traces ∧
    (∀ width height,
      (Sketch.circles (Sketch.drawPanel? resizedPumps.document width height 0)).length = 1) ∧
    (∀ width height,
      (Sketch.circles (Sketch.drawPanel? resizedPumps.document width height 1)).length = 0) ∧
    Sketch.Drawable (Sketch.sides resizedPumps.document 0 0) ∧
    ∃ sketch, Sketch.draw resizedPumps.document 0 0 = .ok sketch ∧ sketch.panels.length = 1 := by
  have plotted : resizedPumps.traces ≠ [] := nofun
  have counted : resizedPumps.placements.length < UInt64.size := by
    have two : resizedPumps.placements.length = 2 := rfl
    rw [two]
    decide
  have fits : Sketch.Drawable (Sketch.sides resizedPumps.document 0 0) := by decide
  obtain ⟨past, t, others, future, cs, split, -, hcs, -, -, each, -, whole, drawing⟩ :=
    panels_show_series _ _ _ plotted counted
  -- Only the first event brings data.
  have first : past = [] ∧ t = Prepared.pumps := by
    rcases past with _ | ⟨e, _ | ⟨e', past⟩⟩
    · cases split
      exact ⟨rfl, rfl⟩
    · cases split
    · simp at split
  obtain ⟨rfl, rfl⟩ := first
  cases hcs
  obtain ⟨_, -, -, -, here, shapes⟩ := each 0 _ rfl
  obtain ⟨_, -, -, -, -, shapes'⟩ := each 1 _ rfl
  have circles (w h : Nat) :
      (Sketch.circles (Sketch.drawPanel? resizedPumps.document w h 0)).length = 1 := by
    obtain ⟨-, -, a, radius, opacity, fill, same⟩ := shapes w h
    exact (congrArg List.length same).trans (List.length_map _)
  have circles' (w h : Nat) :
      (Sketch.circles (Sketch.drawPanel? resizedPumps.document w h 1)).length = 0 := by
    obtain ⟨-, -, a, radius, opacity, fill, same⟩ := shapes' w h
    exact (congrArg List.length same).trans (List.length_map _)
  obtain ⟨sketch, drawn, -, panels⟩ := (drawing 0 0).2 fits
  -- The layout pins the sides. The second pump has no row with two numbers, and so no panel.
  obtain ⟨-, blank, -⟩ := shapes 640 480
  obtain ⟨-, blank', -⟩ := shapes' 640 480
  have one {x y : List Shape} (hx : x ≠ []) (hy : y = []) :
      ([x, y].filter (· ≠ [])).length = 1 := by simp [hx, hy]
  have single : sketch.panels.length = 1 := by
    rw [← List.length_map (·.shapes), panels]
    exact one (mt blank.mp nofun) (blank'.mpr rfl)
  exact ⟨plotted, counted, congrArg List.length here, whole, circles, circles', fits, sketch, drawn,
    single⟩

end Chart
end CorrelationPlot
