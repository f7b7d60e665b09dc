import CorrelationPlot.Proofs.Chart.Run
import CorrelationPlot.Proofs.Prepared

/-!
A chart stores its traces, their placements, the grid and the stage apart from each other. They fit
together in every state that a history of events can lead to.
-/
namespace CorrelationPlot.Chart

/-- The parts of a chart that was made with `settings` fit together. -/
structure Coherent (settings : Settings) (c : Chart) : Prop where
  display : c.settings.view.display = settings.view.display
  columns : c.settings.columns = settings.columns
  laid : Prepared.Laid settings.view.display c.plot
  apart : ∀ (i j : Nat) (q r : Placement),
    c.placements[i]? = some q → c.placements[j]? = some r → i ≠ j →
    (q.row, q.column) ≠ (r.row, r.column) ∧ q.xAxis ≠ r.xAxis ∧ q.yAxis ≠ r.yAxis ∧
      q.xAxis ≠ r.yAxis
  chart : c.stage = .chart → c.placements ≠ []
  noData : c.stage = .noData → c.traces = [] ∧ c.placements = []
  idle : c.stage = .idle → c.plot = ⟨[], ⟨2, settings.columns.toNat⟩, []⟩
  /-- The layout shows the grid of what is plotted. -/
  shown : c.placements ≠ [] → c.layout.grid = c.grid

theorem coherent_new (settings : Settings) (offer : Offer) :
    Coherent settings (new settings offer) where
  display := rfl
  columns := rfl
  laid := Prepared.laid_empty _ _
  apart := by simp [new]
  chart := by simp [new]
  noData := by simp [new]
  idle := fun _ => rfl
  shown := by simp [new]

theorem coherent_showPlot {settings : Settings} {c : Chart} (h : Coherent settings c)
    {tables : List Table} {p : Prepared} (hp : c.prepare tables = .ok p) :
    Coherent settings (c.showPlot p) := by
  have laid : Prepared.Laid settings.view.display p := by
    rw [← h.display]
    exact Prepared.laid_ofTables hp
  by_cases empty : p.placements = []
  · have stage : (c.showPlot p).stage = .noData := if_pos empty
    have none : p.traces = [] := by simpa [empty] using laid.length
    exact ⟨h.display, h.columns, laid, fun i j q r => laid.apart, by simp [stage],
      fun _ => ⟨none, empty⟩, by simp [stage], fun _ => rfl⟩
  · have stage : (c.showPlot p).stage = .chart := if_neg empty
    exact ⟨h.display, h.columns, laid, fun i j q r => laid.apart, fun _ => empty,
      by simp [stage], by simp [stage], fun _ => rfl⟩

theorem coherent_step {settings : Settings} (c : Chart) (e : Event) (h : Coherent settings c) :
    Coherent settings (c.step e).chart := by
  cases e with
  | loading => exact { h with chart := nofun, noData := nofun, idle := nofun }
  | data tables =>
      cases hp : c.prepare tables with
      | ok p =>
          rw [step, receive_of_ok hp]
          exact coherent_showPlot h hp
      | error f =>
          rw [step, receive_of_error hp]
          exact h
  | refresh => exact { h with shown := fun _ => rfl }
  | resize width height => exact { h with }
  | fields added removed => exact { h with }

/-- Every reachable state is coherent. -/
theorem coherent_run (settings : Settings) (offer : Offer) (events : List Event) :
    Coherent settings ((new settings offer).run events) :=
  run_preserves coherent_step (coherent_new settings offer) events

end CorrelationPlot.Chart
