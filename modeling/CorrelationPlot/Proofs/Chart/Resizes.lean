import CorrelationPlot.Proofs.Chart.Run

/-!
Resizes among the other events of a chart. A resize writes how the layout is sized, which no other
event reads or writes. So a resize can be moved past any other event, and in a history only the
order of the resizes among themselves counts and that of the other events among themselves.
-/
namespace CorrelationPlot

/-- A list that takes its elements from two others, each from front to back. -/
inductive Interleaved {α : Type} : List α → List α → List α → Prop where
  | nil : Interleaved [] [] []
  | left {a : α} {as bs cs : List α} : Interleaved as bs cs → Interleaved (a :: as) bs (a :: cs)
  | right {b : α} {as bs cs : List α} : Interleaved as bs cs → Interleaved as (b :: bs) (b :: cs)

namespace Chart

def Event.isResize : Event → Bool
  | .resize _ _ => true
  | .loading | .data _ | .refresh | .fields _ _ => false

theorem Event.isResize_iff {e : Event} :
    e.isResize = true ↔ ∃ width height, e = .resize width height := by
  cases e <;> simp [isResize]

/-- What the data events of a history are answered, one after the other. -/
def answers : Chart → List Event → List (Option PlotFault)
  | _, [] => []
  | c, e :: events =>
    let later := answers (c.step e).chart events
    match e with
    | .data _ => (c.step e).fault :: later
    | .loading | .refresh | .resize _ _ | .fields _ _ => later

theorem step_resize (c : Chart) (width height : UInt32) {e : Event} (other : ¬ e.isResize) :
    (c.resize width height).step e =
      { c.step e with chart := (c.step e).chart.resize width height } := by
  cases e with
  | data tables =>
      -- The plot is made from the settings alone, which a resize does not touch.
      have same : (c.resize width height).prepare tables = c.prepare tables := rfl
      cases hp : c.prepare tables with
      | ok p => rw [step, step, receive_of_ok hp, receive_of_ok (same.trans hp)]; rfl
      | error f => rw [step, step, receive_of_error hp, receive_of_error (same.trans hp)]
  | resize width height => exact absurd rfl other
  | loading | refresh | fields added removed => rfl

theorem run_resize (c : Chart) (width height : UInt32) {events : List Event}
    (others : ∀ e ∈ events, ¬ e.isResize) :
    (c.resize width height).run events = (c.run events).resize width height ∧
      (c.resize width height).answers events = c.answers events := by
  induction events generalizing c with
  | nil => exact ⟨rfl, rfl⟩
  | cons e events ih =>
      obtain ⟨other, others⟩ := List.forall_mem_cons.mp others
      have first := step_resize c width height other
      obtain ⟨state, later⟩ := ih (c.step e).chart others
      constructor
      · simp only [run, List.foldl_cons, first] at state ⊢
        exact state
      · cases e <;> simp only [answers, first, later]

/-- A history with resizes ends as if they had all come last. -/
theorem run_interleaved {resizes others events : List Event}
    (mixed : Interleaved resizes others events) (sizes : ∀ e ∈ resizes, e.isResize)
    (rest : ∀ e ∈ others, ¬ e.isResize) (c : Chart) :
    c.run events = (c.run others).run resizes ∧ c.answers events = c.answers others := by
  induction mixed generalizing c with
  | nil => exact ⟨rfl, rfl⟩
  | left mixed ih =>
      obtain ⟨first, later⟩ := List.forall_mem_cons.mp sizes
      obtain ⟨width, height, rfl⟩ := Event.isResize_iff.mp first
      obtain ⟨state, given⟩ := ih later rest (c.resize width height)
      obtain ⟨moved, same⟩ := run_resize c width height rest
      rw [moved] at state
      exact ⟨state, given.trans same⟩
  | @right e _ _ _ mixed ih =>
      obtain ⟨-, others⟩ := List.forall_mem_cons.mp rest
      obtain ⟨state, given⟩ := ih sizes others (c.step e).chart
      refine ⟨state, ?_⟩
      cases e <;> simp only [answers, given]

/-- A resize and another event may change places: the state after both and what the other event
answers and logs are the same. So all histories that mix the same resizes and the same other events
end in one state and give their data the same answers. -/
theorem resizes_commute :
    (∀ (c : Chart) (width height : UInt32) (e : Event), ¬ e.isResize →
      let resized := (c.step (.resize width height)).chart
      (resized.step e).chart = ((c.step e).chart.step (.resize width height)).chart ∧
        (resized.step e).fault = (c.step e).fault ∧ (resized.step e).log = (c.step e).log) ∧
    ∀ (c : Chart) (resizes others history history' : List Event),
      (∀ e ∈ resizes, e.isResize) → (∀ e ∈ others, ¬ e.isResize) →
      Interleaved resizes others history → Interleaved resizes others history' →
      c.run history = c.run history' ∧ c.answers history = c.answers history' := by
  constructor
  · intro c width height e other resized
    have moved : resized.step e =
        { c.step e with chart := (c.step e).chart.resize width height } :=
      step_resize c width height other
    rw [moved]
    exact ⟨rfl, rfl, rfl⟩
  · intro c resizes others history history' sizes rest mixed mixed'
    obtain ⟨state, given⟩ := run_interleaved mixed sizes rest c
    obtain ⟨state', given'⟩ := run_interleaved mixed' sizes rest c
    exact ⟨state.trans state'.symm, given.trans given'.symm⟩

/-- The chart of a gauge against itself. -/
def gaugeChart : Chart :=
  let gauge := Selector.named "gauge" true
  new { view := ⟨some gauge, some gauge, .scatter⟩ } [gauge]

def gaugeData : Event := .data [⟨["gauge"], [.ofRows [[.ofInt 1], [.ofInt 4]] none], some 2⟩]

/-- The gauge is lost between two times that its data come. -/
def losingGauge : List Event := [gaugeData, .fields [] [.named "gauge" true], gaugeData]

/-- The chart is made small before everything and great before the data come again. -/
def resizedBetween : List Event :=
  [.resize 64 48, gaugeData, .fields [] [.named "gauge" true], .resize 640 480, gaugeData]

theorem resizedBetween_as_before : ¬ gaugeData.isResize ∧
    ((gaugeChart.step (.resize 64 48)).chart.step gaugeData).fault = none ∧
    (∀ e ∈ [Event.resize 64 48, .resize 640 480], e.isResize) ∧
    (∀ e ∈ losingGauge, ¬ e.isResize) ∧
    Interleaved [.resize 64 48, .resize 640 480] losingGauge resizedBetween ∧
    Interleaved [.resize 64 48, .resize 640 480] losingGauge
      ([.resize 64 48, .resize 640 480] ++ losingGauge) ∧
    gaugeChart.run resizedBetween =
      gaugeChart.run ([.resize 64 48, .resize 640 480] ++ losingGauge) ∧
    gaugeChart.answers resizedBetween = [none, some (.unselected .x)] := by
  have other : ¬ gaugeData.isResize := nofun
  have sizes : ∀ e ∈ [Event.resize 64 48, .resize 640 480], e.isResize := by simp [Event.isResize]
  have rest : ∀ e ∈ losingGauge, ¬ e.isResize := by simp [losingGauge, gaugeData, Event.isResize]
  have mixed : Interleaved [.resize 64 48, .resize 640 480] losingGauge resizedBetween :=
    .left (.right (.right (.left (.right .nil))))
  have before : Interleaved [.resize 64 48, .resize 640 480] losingGauge
      ([.resize 64 48, .resize 640 480] ++ losingGauge) :=
    .left (.left (.right (.right (.right .nil))))
  obtain ⟨-, fault, -⟩ := resizes_commute.1 gaugeChart 64 48 gaugeData other
  obtain ⟨state, given⟩ := resizes_commute.2 gaugeChart _ _ _ _ sizes rest mixed before
  exact ⟨other, fault, sizes, rest, mixed, before, state, given⟩

end Chart
end CorrelationPlot
