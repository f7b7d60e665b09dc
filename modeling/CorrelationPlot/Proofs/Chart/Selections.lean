import CorrelationPlot.Proofs.Chart.Run
import CorrelationPlot.Proofs.Offer
import Mathlib.Data.List.Induction

/-!
The selections of a chart. They follow the changes of the fields on offer: a selection always names
a field that is offered, it moves only when its field is removed, and then only to a numeric field.
It can be left empty although a numeric field is on offer, namely one whose name the same change has
removed and added.
-/
namespace CorrelationPlot.Chart

def selection (c : Chart) : Axis → Option Selector
  | .x => c.settings.view.xField
  | .y => c.settings.view.yField

def Event.removed : Event → List Selector
  | .fields _ removed => removed
  | .loading | .data _ | .refresh | .resize _ _ => []

/-- One of the events removes the fields of a name. -/
def Removed (name : String) (events : List Event) : Prop :=
  ∃ e ∈ events, name ∈ Offer.names e.removed

theorem removed_append {name : String} {past future : List Event} :
    Removed name (past ++ future) ↔ Removed name past ∨ Removed name future := by
  simp only [Removed, List.mem_append, or_and_right, exists_or]

theorem removed_cons {name : String} {e : Event} {events : List Event} :
    Removed name (e :: events) ↔ name ∈ Offer.names e.removed ∨ Removed name events := by
  simp [Removed]

theorem selection_congr {c d : Chart} (h : c.settings = d.settings) :
    c.selection = d.selection := by
  funext axis
  cases axis <;> simp only [selection, h]

theorem selection_updateFields (c : Chart) (added removed : List Selector) (axis : Axis) :
    ((c.updateFields added removed).chart).selection axis =
      substitute (c.selection axis) c.offer.numeric added removed (·.isNumeric) := by
  cases axis <;> rfl

/-- Only a change of the fields touches the selections and the offer. -/
theorem step_fields_or_same (c : Chart) (e : Event) :
    (∃ added removed, e = .fields added removed) ∨
      ((c.step e).chart).selection = c.selection ∧ ((c.step e).chart).offer = c.offer ∧
        e.removed = [] := by
  cases e with
  | fields added removed => exact .inl ⟨added, removed, rfl⟩
  | data tables =>
      cases hp : c.prepare tables with
      | ok p => rw [step, receive_of_ok hp]; exact .inr ⟨selection_congr rfl, rfl, rfl⟩
      | error f => rw [step, receive_of_error hp]; exact .inr ⟨rfl, rfl, rfl⟩
  | loading | refresh | resize width height => exact .inr ⟨selection_congr rfl, rfl, rfl⟩

section Step
variable {c : Chart} {e : Event} {axis : Axis} {f : Selector}

theorem step_selection_kept (h : c.selection axis = some f)
    (kept : f.fullName ∉ Offer.names e.removed) :
    ((c.step e).chart).selection axis = some f := by
  rcases step_fields_or_same c e with ⟨added, removed, rfl⟩ | ⟨same, -, -⟩
  · rw [step, selection_updateFields, h]
    exact substitute_kept kept
  · rw [same, h]

/-- What is selected after a step was not removed by it, and what is newly selected is numeric. -/
theorem step_selection_eq_some (h : ((c.step e).chart).selection axis = some f) :
    f.fullName ∉ Offer.names e.removed ∧ (c.selection axis = some f ∨ f.isNumeric = true) := by
  rcases step_fields_or_same c e with ⟨added, removed, rfl⟩ | ⟨same, -, none⟩
  · rw [step, selection_updateFields] at h
    obtain ⟨kept, before | ⟨-, numeric⟩⟩ := substitute_eq_some h
    · exact ⟨kept, .inl before⟩
    · exact ⟨kept, .inr numeric⟩
  · rw [same] at h
    rw [none]
    exact ⟨List.not_mem_nil, .inl h⟩

end Step

/-- Every selection names a field on offer. -/
def Offered (c : Chart) : Prop :=
  ∀ axis f, c.selection axis = some f → f.fullName ∈ c.offer.names

theorem offered_step (c : Chart) (e : Event) (h : Offered c) : Offered ((c.step e).chart) := by
  intro axis f selected
  rcases step_fields_or_same c e with ⟨added, removed, rfl⟩ | ⟨same, offer, -⟩
  · rw [step, selection_updateFields] at selected
    obtain ⟨kept, before⟩ := substitute_eq_some selected
    apply Offer.mem_names_change.mpr
    rcases before with before | ⟨candidate, -⟩
    · exact .inl ⟨h axis f before, kept⟩
    · rcases List.mem_append.mp candidate with available | fresh
      · exact .inl ⟨Offer.mem_names (Offer.mem_numeric.mp available).1, kept⟩
      · exact .inr (Offer.mem_names fresh)
  · rw [same] at selected
    rw [offer]
    exact h axis f selected

section Run
variable {c : Chart} {events : List Event} {axis : Axis} {f : Selector}

theorem run_selection_kept (h : c.selection axis = some f) (kept : ¬ Removed f.fullName events) :
    (c.run events).selection axis = some f := by
  induction events generalizing c with
  | nil => exact h
  | cons e events ih =>
      rw [removed_cons, not_or] at kept
      exact ih (step_selection_kept h kept.1) kept.2

/-- A selection that is not numeric was made before the history and outlasts it. -/
theorem run_selection_eq_some (h : (c.run events).selection axis = some f) :
    f.isNumeric = true ∨ c.selection axis = some f ∧ ¬ Removed f.fullName events := by
  induction events using List.reverseRecOn with
  | nil => exact .inr ⟨h, nofun⟩
  | append_singleton events e ih =>
      rw [run_snoc] at h
      obtain ⟨kept, before | numeric⟩ := step_selection_eq_some h
      · rcases ih before with numeric | ⟨first, never⟩
        · exact .inl numeric
        · refine .inr ⟨first, ?_⟩
          rw [removed_append, removed_cons]
          rintro (past | here | ⟨_, ⟨⟩, -⟩)
          · exact never past
          · exact kept here
      · exact .inl numeric

end Run

/-- Selections stay among the fields on offer, and one that is not numeric has been there from the
beginning and was never removed. -/
theorem selections_offered (settings : Settings) (offer : Offer)
    (offered : ∀ axis f, (new settings offer).selection axis = some f →
      f.fullName ∈ offer.names) (events : List Event) :
    let start := new settings offer
    let c := start.run events
    ∀ axis f, c.selection axis = some f →
      f.fullName ∈ c.offer.names ∧
      (f.isNumeric = true ∨ ¬ Removed f.fullName events ∧
        ∀ past future, events = past ++ future → (start.run past).selection axis = some f) := by
  intro start c axis f selected
  refine ⟨run_preserves offered_step offered events axis f selected, ?_⟩
  rcases run_selection_eq_some selected with numeric | ⟨first, never⟩
  · exact .inl numeric
  · refine .inr ⟨never, ?_⟩
    rintro past future rfl
    exact run_selection_kept first fun gone => never (removed_append.mpr (.inl gone))

/-- A valve has states and no numbers. -/
def valve : Selector := .named "valve" false

def flow : Selector := .named "flow" true

def level : Selector := .named "level" true

/-- A chart of the valve against the flow. -/
def plant : Settings := { view := ⟨some valve, some flow, .scatter⟩ }

/-- The flow is no longer measured. -/
def flowLost : List Event := [.fields [] [flow], .refresh]

theorem plant_offered :
    (∀ axis f, (new plant [valve, flow, level]).selection axis = some f →
      f.fullName ∈ Offer.names [valve, flow, level]) ∧
    (((new plant [valve, flow, level]).run flowLost).selection .x = some valve ∧
      ¬ Removed "valve" flowLost) ∧
    ((new plant [valve, flow, level]).run flowLost).selection .y = some level ∧
      "level" ∈ ((new plant [valve, flow, level]).run flowLost).offer.names := by
  have offered : ∀ axis f, (new plant [valve, flow, level]).selection axis = some f →
      f.fullName ∈ Offer.names [valve, flow, level] := by
    intro axis f selected
    cases axis <;> cases selected <;> decide
  have stays := selections_offered plant [valve, flow, level] offered flowLost
  obtain ⟨-, numeric | ⟨never, -⟩⟩ := stays .x valve rfl
  · cases numeric
  · exact ⟨offered, ⟨rfl, never⟩, rfl, (stays .y level rfl).1⟩

theorem updateFields_selection_eq_none {c : Chart} {added removed : List Selector} {axis : Axis} :
    ((c.updateFields added removed).chart).selection axis = none ↔
      (∀ f, c.selection axis = some f → f.fullName ∈ Offer.names removed) ∧
      ∀ g, g ∈ c.offer ∨ g ∈ added → g.isNumeric = true → g.fullName ∈ Offer.names removed := by
  rw [selection_updateFields, substitute_eq_none]
  refine and_congr_right fun _ => forall_congr' fun g => ?_
  rw [List.mem_append, Offer.mem_numeric]
  tauto

/-- A selection is left empty when it was empty or its field was removed, and no numeric field among
those on offer and those added has a name that was not removed. The numeric fields that are on offer
then were all removed and added by the same change. -/
theorem selection_emptied (c : Chart) (added removed : List Selector) (axis : Axis) :
    let after := (c.updateFields added removed).chart
    (after.selection axis = none ↔
      (∀ f, c.selection axis = some f → f.fullName ∈ Offer.names removed) ∧
      ∀ g, g ∈ c.offer ∨ g ∈ added → g.isNumeric = true → g.fullName ∈ Offer.names removed) ∧
    (after.selection axis = none → ∀ g, g.isNumeric = true →
      (g ∈ after.offer ↔
        added.find? (·.same g) = some g ∧ g.fullName ∈ Offer.names removed)) := by
  intro after
  refine ⟨updateFields_selection_eq_none, fun none g numeric => ?_⟩
  obtain ⟨-, gone⟩ := updateFields_selection_eq_none.mp none
  have offer : after.offer = c.offer.change added removed := rfl
  rw [offer, Offer.mem_change]
  constructor
  · rintro (⟨offered, kept⟩ | ⟨-, first⟩)
    · exact absurd (gone g (.inl offered) numeric) kept
    · exact ⟨first, gone g (.inr (List.mem_of_find?_eq_some first)) numeric⟩
  · rintro ⟨first, lost⟩
    exact .inr ⟨fun kept => kept.2 lost, first⟩

/-- The only numeric field is replaced by one of the same name. -/
def renewed : Chart :=
  let before := new { view := ⟨some flow, some flow, .scatter⟩ } [flow, valve]
  (before.updateFields [flow] [flow]).chart

theorem renewed_emptied : renewed.selection .x = none ∧
    ∀ g, g.isNumeric = true →
      (g ∈ renewed.offer ↔ [flow].find? (·.same g) = some g ∧ g.fullName ∈ Offer.names [flow]) :=
  ⟨rfl, (selection_emptied _ _ _ .x).2 rfl⟩

/-- Neither selection takes up the field, although it is offered again. -/
theorem renewed_not_selected : renewed.selection .x = none ∧ renewed.selection .y = none ∧
    flow ∈ renewed.offer ∧ flow.isNumeric = true := by
  decide

end CorrelationPlot.Chart
