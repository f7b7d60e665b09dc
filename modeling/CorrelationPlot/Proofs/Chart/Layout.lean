import CorrelationPlot.Proofs.Chart.Last

/-!
The layout of a chart and its history. Accepted data and a refresh give the layout its look, which
is that of the settings and the grid at that moment; a resize pins the size. Neither part is touched
by any other event, so each is as the last event of its kind has left it.
-/
namespace CorrelationPlot

/-- What a layout shows of an appearance, a view and a grid. -/
def Layout.showing (appearance : Appearance) (view : View) (grid : Grid) : Layout :=
  { grid
    pattern := "independent"
    xTitle := (view.xField.map (·.fullName)).getD ""
    yTitle := (view.yField.map (·.fullName)).getD ""
    fontColor := appearance.text
    plotBackground := appearance.background
    paperBackground := appearance.background }

namespace Chart

/-- The layout apart from its size. -/
def look (c : Chart) : Layout := { c.layout with autosize := true, width := none, height := none }

/-- Whether the layout adapts its size, and the size to which it is pinned. -/
def pinned (c : Chart) : Bool × Option UInt32 × Option UInt32 :=
  (c.layout.autosize, c.layout.width, c.layout.height)

/-- The steps that copy the appearance into the layout. -/
def Appears : Kind := fun c e => e = .refresh ∨ Accepts c e

def Resizes : Kind := fun _ e => ∃ width height, e = .resize width height

/-- The layout has the look of the chart as it stands. -/
def Fresh (c : Chart) : Prop := c.look = .showing c.settings.appearance c.settings.view c.grid

theorem fresh_step {c : Chart} {e : Event} (h : Appears c e) : Fresh ((c.step e).chart) := by
  rcases h with rfl | accepted
  · exact rfl
  · obtain ⟨tables, p, rfl, hp⟩ := accepts_iff.mp accepted
    rw [step, receive_of_ok hp]
    exact rfl

theorem fresh_run_snoc {c : Chart} {past : List Event} {e : Event} (h : Appears (c.run past) e) :
    Fresh (c.run (past ++ [e])) := by
  rw [run_snoc]
  exact fresh_step h

theorem step_look_unchanged (c : Chart) (e : Event) (h : ¬ Appears c e) :
    (((c.step e).chart).look, ((c.step e).chart).grid) = (c.look, c.grid) := by
  cases e with
  | data tables =>
      cases hp : c.prepare tables with
      | ok p => exact absurd (.inr (accepts_iff.mpr ⟨tables, p, rfl, hp⟩)) h
      | error f => rw [step, receive_of_error hp]
  | refresh => exact absurd (.inl rfl) h
  | loading | resize width height | fields added removed => rfl

theorem step_pinned_unchanged (c : Chart) (e : Event) (h : ¬ Resizes c e) :
    ((c.step e).chart).pinned = c.pinned := by
  cases e with
  | data tables =>
      cases hp : c.prepare tables with
      | ok p => rw [step, receive_of_ok hp]; rfl
      | error f => rw [step, receive_of_error hp]
  | resize width height => exact absurd ⟨width, height, rfl⟩ h
  | loading | refresh | fields added removed => rfl

/-- The grid needs no refresh: only accepted data change it, and they refresh the look as well. -/
theorem look_of_fresh {c : Chart} {events : List Event} (fresh : Fresh c)
    (never : Never Appears c events) :
    (c.run events).look =
      .showing c.settings.appearance c.settings.view (c.run events).grid := by
  have same := run_of_never (f := fun d => (d.look, d.grid)) step_look_unchanged never
  rw [Prod.mk.injEq] at same
  rw [same.1, same.2]
  exact fresh

/-- The look of the layout is settled by the last event that gives it one, and its size by the last
resize; without such an event they are those of the layout with which every chart begins. -/
theorem layout_of_history (settings : Settings) (offer : Offer) (events : List Event) :
    let start := new settings offer
    let c := start.run events
    ((Never Appears start events ∧ c.look = ({} : Layout)) ∨
      ∃ past e future, events = past ++ e :: future ∧ IsLast Appears start past e future ∧
        c.look = .showing settings.appearance (start.run (past ++ [e])).settings.view c.grid) ∧
    ((Never Resizes start events ∧ c.pinned = (true, none, none)) ∨
      ∃ past width height future, events = past ++ .resize width height :: future ∧
        IsLast Resizes start past (.resize width height) future ∧
        c.pinned = (false, some width, some height)) := by
  intro start c
  constructor
  · rcases never_or_last Appears start events with never | ⟨past, e, future, split, last⟩
    · have same := run_of_never (f := fun d => (d.look, d.grid)) step_look_unchanged never
      exact .inl ⟨never, congrArg Prod.fst same⟩
    · refine .inr ⟨past, e, future, split, last, ?_⟩
      have look := look_of_fresh (fresh_run_snoc last.here) last.later
      obtain ⟨-, appearance, -⟩ := run_settings start (past ++ [e])
      rw [← run_append_cons, ← split, appearance] at look
      exact look
  · rcases never_or_last Resizes start events with never | ⟨past, e, future, split, last⟩
    · exact .inl ⟨never, run_of_never step_pinned_unchanged never⟩
    · obtain ⟨width, height, rfl⟩ := last.here
      refine .inr ⟨past, width, height, future, split, last, ?_⟩
      have same := run_of_last step_pinned_unchanged last
      rw [← split, run_snoc] at same
      exact same

end Chart
end CorrelationPlot
