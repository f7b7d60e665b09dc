import CorrelationPlot.Proofs.Chart.Layout
import CorrelationPlot.Proofs.Chart.Selections
import CorrelationPlot.Proofs.Prepared

/-!
The axis titles and the plot. The plot is that of the last accepted data, made by the fields that
were selected then; the titles name the fields that were selected when the layout got its look last.
They can differ only when a field is removed in between.
-/
namespace CorrelationPlot

def Layout.axisTitleOf (l : Layout) : Axis → String
  | .x => l.xTitle
  | .y => l.yTitle

namespace Prepared
open Outcome

/-- Columns are found for selected fields only. -/
theorem selected_of_columns {t : Table} {view : View} {cs : Columns}
    (h : columns t view = .ok cs) : ∃ x y, view.xField = some x ∧ view.yField = some y := by
  simp only [columns, bind_eq_ok, selected_eq_ok] at h
  obtain ⟨x, hx, -, -, y, hy, -⟩ := h
  exact ⟨x, y, hx, hy⟩

end Prepared

namespace Chart

/-- In a history that begins with `start`, the tables behind `past` are the last that were accepted,
and the traces are their plot by the given fields. -/
structure PlottedBy (start : Chart) (past : List Event) (tables : List Table)
    (future : List Event) (field : Axis → Selector) : Prop where
  last : IsLast Accepts start past (.data tables) future
  selected : ∀ axis, (start.run past).selection axis = some (field axis)
  traces : ∃ p, (start.run past).prepare tables = .ok p ∧
    (start.run (past ++ .data tables :: future)).traces = p.traces

theorem exists_plottedBy {settings : Settings} {offer : Offer} {events : List Event}
    (plotted : ((new settings offer).run events).traces ≠ []) :
    ∃ past tables future field, events = past ++ .data tables :: future ∧
      PlottedBy (new settings offer) past tables future field := by
  rcases never_or_last Accepts (new settings offer) events with
    never | ⟨past, e, future, rfl, last⟩
  · have first := run_of_never step_plot_unchanged never
    exact absurd (congrArg Prepared.traces first) plotted
  · obtain ⟨tables, p, rfl, hp⟩ := accepts_iff.mp last.here
    have traces := congrArg Prepared.traces (run_of_last step_plot_unchanged last)
    rw [run_snoc, step_plot_of_ok hp] at traces
    rcases Prepared.ofTables_eq_ok hp with ⟨-, grid, -, rfl⟩ | ⟨t, _, _, cs, -, -, -, hcs, -⟩
    · exact absurd traces plotted
    · obtain ⟨x, y, hx, hy⟩ := Prepared.selected_of_columns hcs
      refine ⟨past, tables, future, fun | .x => x | .y => y, rfl, last, ?_, p, hp, traces⟩
      intro axis
      cases axis
      · exact hx
      · exact hy

/-- After the last look only a refresh can give the layout another, unless data are accepted. -/
theorem exists_lastLook {c : Chart} {future : List Event} (fresh : Fresh c)
    (refused : Never Accepts c future) :
    ∃ between rest, future = between ++ rest ∧ (between = [] ∨ ∃ b, between = b ++ [.refresh]) ∧
      Never Appears (c.run between) rest ∧ Fresh (c.run between) := by
  rcases never_or_last Appears c future with never | ⟨b, e, rest, rfl, last⟩
  · exact ⟨[], future, rfl, .inl rfl, never, fresh⟩
  · rcases last.here with rfl | accepted
    · exact ⟨b ++ [.refresh], rest, by simp, .inr ⟨b, rfl⟩, last.later,
        fresh_run_snoc last.here⟩
    · exact absurd accepted (refused b e rest rfl)

theorem title_of_fresh {c : Chart} {events : List Event} (fresh : Fresh c)
    (never : Never Appears c events) (axis : Axis) :
    (c.run events).layout.axisTitleOf axis = title (c.selection axis) := by
  have look := look_of_fresh fresh never
  cases axis
  · exact congrArg Layout.xTitle look
  · exact congrArg Layout.yTitle look

/-- The titles name the selections at the last look: at the data that are plotted, or at the last
refresh behind them. So a title names the field by which the data are plotted, unless that field was
removed before the refresh. -/
theorem titles_of_plot (settings : Settings) (offer : Offer) (events : List Event)
    (plotted : ((new settings offer).run events).document.traces ≠ []) :
    let start := new settings offer
    ∃ past tables between rest field,
      events = past ++ .data tables :: (between ++ rest) ∧
      PlottedBy start past tables (between ++ rest) field ∧
      (between = [] ∨ ∃ b, between = b ++ [.refresh]) ∧
      Never Appears (start.run (past ++ .data tables :: between)) rest ∧
      ∀ axis,
        (start.run events).document.layout.axisTitleOf axis =
          title ((start.run (past ++ .data tables :: between)).selection axis) ∧
        (¬ Removed (field axis).fullName between →
          (start.run events).document.layout.axisTitleOf axis = (field axis).fullName) := by
  intro start
  obtain ⟨past, tables, future, field, rfl, made⟩ := exists_plottedBy plotted
  have fresh : Fresh (start.run (past ++ [.data tables])) :=
    fresh_run_snoc (.inr made.last.here)
  obtain ⟨between, rest, rfl, shown, never, held⟩ := exists_lastLook fresh made.last.later
  rw [← run_append_cons] at never held
  refine ⟨past, tables, between, rest, field, rfl, made, shown, never, fun axis => ?_⟩
  have titled := title_of_fresh held never axis
  rw [← run_append, List.append_assoc, List.cons_append] at titled
  refine ⟨titled, fun kept => titled.trans ?_⟩
  -- Data leave the selections alone, so the field is still selected when they have been accepted.
  have selected : (start.run (past ++ [.data tables])).selection axis = some (field axis) := by
    rw [run_snoc]
    exact step_selection_kept (made.selected axis) List.not_mem_nil
  rw [run_append_cons, run_selection_kept selected kept]
  rfl

theorem split_at_only_data {first tables : List Table} {past tail future : List Event}
    (only : ∀ tables, .data tables ∉ tail)
    (split : .data first :: tail = past ++ .data tables :: future) : past = [] ∧ tail = future := by
  cases past with
  | nil =>
      cases split
      exact ⟨rfl, rfl⟩
  | cons e past =>
      obtain ⟨-, rfl⟩ := List.cons.inj split
      exact absurd (List.mem_append_right _ List.mem_cons_self) (only tables)

def readings : Table := ⟨["flow", "level"], [.ofRows [[.ofInt 1, .ofInt 2]] none], some 1⟩

/-- A chart of the flow against the level. -/
def gauges : Chart := new { view := ⟨some flow, some level, .scatter⟩ } [flow, level]

/-- Data are shown, and then a field is lost before the chart is refreshed. -/
def losing (field : Selector) : List Event := [.data [readings], .fields [] [field], .refresh]

theorem losing_level_title : (gauges.run (losing level)).document.traces ≠ [] ∧
    (gauges.run (losing level)).document.layout.axisTitleOf .x = "flow" := by
  have plotted : (gauges.run (losing level)).document.traces ≠ [] := nofun
  obtain ⟨past, tables, between, rest, field, split, made, -, -, titled⟩ :=
    titles_of_plot _ _ (losing level) plotted
  obtain ⟨rfl, behind⟩ := split_at_only_data (by simp) split
  have x : flow = field .x := Option.some.inj (made.selected .x)
  have kept := (titled .x).2
  rw [← x] at kept
  refine ⟨plotted, kept fun lost => ?_⟩
  have removed : Removed "flow" (between ++ rest) := removed_append.mpr (.inl lost)
  rw [← behind] at removed
  simp [Removed, Event.removed, Offer.names, level, Selector.named] at removed

/-- The data stay plotted by the flow, but the refresh names the field that took its place. -/
theorem losing_flow_title : ∃ past tables future field,
    losing flow = past ++ .data tables :: future ∧
    PlottedBy gauges past tables future field ∧
    (gauges.run (losing flow)).document.traces ≠ [] ∧ (field .x).fullName = "flow" ∧
    (gauges.run (losing flow)).document.layout.axisTitleOf .x = "level" := by
  have plotted : (gauges.run (losing flow)).document.traces ≠ [] := nofun
  obtain ⟨past, tables, future, field, split, made⟩ := exists_plottedBy plotted
  obtain ⟨rfl, -⟩ := split_at_only_data (by simp) split
  have x : flow = field .x := Option.some.inj (made.selected .x)
  exact ⟨[], tables, future, field, split, made, plotted, x ▸ rfl, rfl⟩

end Chart
end CorrelationPlot
