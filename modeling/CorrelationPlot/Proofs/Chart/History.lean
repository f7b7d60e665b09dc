import CorrelationPlot.Proofs.Chart.Last

/-!
The plot of a chart and its history. Whatever has happened, the chart holds the plot of the data
that it accepted last, made with the selections of that moment; data that cannot be plotted are
answered with the reason and change nothing.
-/
namespace CorrelationPlot.Chart

/-- No data of the history are accepted by a chart that begins as `c`. -/
def AllRefused (c : Chart) (events : List Event) : Prop :=
  ∀ past tables future, events = past ++ .data tables :: future →
    ((c.run past).step (.data tables)).fault ≠ none

theorem allRefused_iff {c : Chart} {events : List Event} :
    AllRefused c events ↔ Never Accepts c events := by
  constructor
  · rintro h past e future split ⟨tables, rfl, accepted⟩
    exact h past tables future split accepted
  · intro h past tables future split accepted
    exact h past _ future split ⟨tables, rfl, accepted⟩

/-- The plot after a history that begins with `c`: the one it began with, or that of the last data
that were accepted. -/
def HoldsLastAccepted (c : Chart) (events : List Event) : Prop :=
  (AllRefused c events ∧ (c.run events).plot = c.plot) ∨
  ∃ past tables future p, events = past ++ .data tables :: future ∧
    (c.run past).prepare tables = .ok p ∧
    AllRefused (c.run (past ++ [.data tables])) future ∧ (c.run events).plot = p

theorem holdsLastAccepted (c : Chart) (events : List Event) : HoldsLastAccepted c events := by
  rcases never_or_last Accepts c events with never | ⟨past, e, future, rfl, last⟩
  · exact .inl ⟨allRefused_iff.mpr never, run_of_never step_plot_unchanged never⟩
  · obtain ⟨tables, p, rfl, hp⟩ := accepts_iff.mp last.here
    refine .inr ⟨past, tables, future, p, rfl, hp, allRefused_iff.mpr last.later, ?_⟩
    rw [run_of_last step_plot_unchanged last, run_snoc, step_plot_of_ok hp]

/-- The last accepted data win, and refused data are answered with the reason and change nothing. -/
theorem plot_of_history (settings : Settings) (offer : Offer) (events : List Event) :
    ((AllRefused (new settings offer) events ∧
        ((new settings offer).run events).plot = ⟨[], ⟨2, settings.columns.toNat⟩, []⟩) ∨
      ∃ past tables future p, events = past ++ .data tables :: future ∧
        Prepared.ofTables tables ((new settings offer).run past).settings.view
          settings.columns.toNat = .ok p ∧
        AllRefused ((new settings offer).run (past ++ [.data tables])) future ∧
        ((new settings offer).run events).plot = p) ∧
    ∀ tables fault,
      let c := (new settings offer).run events
      ((c.step (.data tables)).fault = some fault ↔
        Prepared.ofTables tables c.settings.view settings.columns.toNat = .error fault) ∧
      ((c.step (.data tables)).fault = some fault → (c.step (.data tables)).chart = c) := by
  have width : ∀ past, ((new settings offer).run past).settings.columns = settings.columns :=
    run_columns (new settings offer)
  constructor
  · rcases holdsLastAccepted (new settings offer) events with
      first | ⟨past, tables, future, p, split, hp, later, hplot⟩
    · exact .inl first
    · rw [prepare, width] at hp
      exact .inr ⟨past, tables, future, p, split, hp, later, hplot⟩
  · intro tables fault c
    have answer := receive_fault c tables fault
    refine ⟨?_, fun h => ?_⟩
    · rw [prepare, width] at answer
      exact answer
    · rw [step, receive_of_error (answer.mp h)]

end CorrelationPlot.Chart
