import CorrelationPlot.Chart
import CorrelationPlot.Proofs.Outcome

/-!
Histories of a live chart. Of all events only data can be refused, and data that are refused leave
no trace; the plot that a chart holds is touched by no other event.
-/
namespace CorrelationPlot.Chart

/-- What a chart has plotted. -/
def plot (c : Chart) : Prepared := ⟨c.traces, c.grid, c.placements⟩

/-- The plot of tables with the settings as they stand. -/
def prepare (c : Chart) (tables : List Table) : Except PlotFault Prepared :=
  Prepared.ofTables tables c.settings.view c.settings.columns.toNat

theorem run_append (c : Chart) (past future : List Event) :
    c.run (past ++ future) = (c.run past).run future :=
  List.foldl_append

theorem run_snoc (c : Chart) (past : List Event) (e : Event) :
    c.run (past ++ [e]) = ((c.run past).step e).chart :=
  run_append c past [e]

theorem run_append_cons (c : Chart) (past : List Event) (e : Event) (future : List Event) :
    c.run (past ++ e :: future) = (c.run (past ++ [e])).run future := by
  rw [← run_append, List.append_assoc, List.singleton_append]

/-- What every step keeps holds after every history. -/
theorem run_preserves {P : Chart → Prop} (keeps : ∀ c e, P c → P (c.step e).chart) {c : Chart}
    (start : P c) (events : List Event) : P (c.run events) := by
  induction events generalizing c with
  | nil => exact start
  | cons e events ih => exact ih (keeps c e start)

/-- What every step of one kind keeps holds after every history of such steps. -/
theorem run_preserves_of {P : Chart → Prop} {Q : Event → Prop}
    (keeps : ∀ c e, Q e → P c → P (c.step e).chart) {c : Chart} (start : P c)
    {events : List Event} (all : ∀ e ∈ events, Q e) : P (c.run events) := by
  induction events generalizing c with
  | nil => exact start
  | cons e events ih =>
      obtain ⟨first, others⟩ := List.forall_mem_cons.mp all
      exact ih (keeps c e first start) others

theorem receive_of_ok {c : Chart} {tables : List Table} {p : Prepared}
    (h : c.prepare tables = .ok p) :
    c.receive tables = { chart := c.showPlot p, log := plotLog p } := by
  rw [prepare] at h
  rw [receive, h]

theorem receive_of_error {c : Chart} {tables : List Table} {f : PlotFault}
    (h : c.prepare tables = .error f) :
    c.receive tables = { chart := c, fault := some f } := by
  rw [prepare] at h
  rw [receive, h]

theorem receive_fault (c : Chart) (tables : List Table) (f : PlotFault) :
    (c.receive tables).fault = some f ↔ c.prepare tables = .error f := by
  cases h : c.prepare tables with
  | ok p => simp [receive_of_ok h]
  | error g => simp [receive_of_error h]

theorem step_plot_of_ok {c : Chart} {tables : List Table} {p : Prepared}
    (h : c.prepare tables = .ok p) : ((c.step (.data tables)).chart).plot = p := by
  rw [step, receive_of_ok h]
  rfl

/-- Data that are plotted. -/
def Accepts (c : Chart) (e : Event) : Prop := ∃ tables, e = .data tables ∧ (c.step e).fault = none

theorem accepts_iff {c : Chart} {e : Event} :
    Accepts c e ↔ ∃ tables p, e = .data tables ∧ c.prepare tables = .ok p := by
  constructor
  · rintro ⟨tables, rfl, accepted⟩
    cases hp : c.prepare tables with
    | ok p => exact ⟨tables, p, rfl, hp⟩
    | error f =>
        rw [step, receive_of_error hp] at accepted
        cases accepted
  · rintro ⟨tables, p, rfl, hp⟩
    exact ⟨tables, rfl, by rw [step, receive_of_ok hp]⟩

/-- An event that brings no accepted data leaves the plot as it was. -/
theorem step_plot_unchanged (c : Chart) (e : Event) (h : ¬ Accepts c e) :
    ((c.step e).chart).plot = c.plot := by
  cases e with
  | data tables =>
      cases hp : c.prepare tables with
      | ok p => exact absurd (accepts_iff.mpr ⟨tables, p, rfl, hp⟩) h
      | error f => rw [step, receive_of_error hp]
  | loading | refresh | resize width height | fields added removed => rfl

/-- The appearance, the display and the width of the grid are settled when the chart is made. -/
theorem step_settings (c : Chart) (e : Event) :
    ((c.step e).chart).settings.view.display = c.settings.view.display ∧
      ((c.step e).chart).settings.appearance = c.settings.appearance ∧
      ((c.step e).chart).settings.columns = c.settings.columns := by
  cases e with
  | data tables =>
      cases hp : c.prepare tables with
      | ok p => rw [step, receive_of_ok hp]; exact ⟨rfl, rfl, rfl⟩
      | error f => rw [step, receive_of_error hp]; exact ⟨rfl, rfl, rfl⟩
  | loading | refresh | resize width height | fields added removed => exact ⟨rfl, rfl, rfl⟩

theorem run_settings (c : Chart) (events : List Event) :
    (c.run events).settings.view.display = c.settings.view.display ∧
      (c.run events).settings.appearance = c.settings.appearance ∧
      (c.run events).settings.columns = c.settings.columns := by
  induction events generalizing c with
  | nil => exact ⟨rfl, rfl, rfl⟩
  | cons e events ih =>
      obtain ⟨display, appearance, columns⟩ := step_settings c e
      rw [← display, ← appearance, ← columns]
      exact ih ((c.step e).chart)

theorem run_columns (c : Chart) (events : List Event) :
    (c.run events).settings.columns = c.settings.columns :=
  (run_settings c events).2.2

end CorrelationPlot.Chart
