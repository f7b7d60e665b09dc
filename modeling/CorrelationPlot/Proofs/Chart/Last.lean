import CorrelationPlot.Proofs.Chart.Run
import Mathlib.Data.List.Induction

/-!
The last step of a kind in a history. Whether a step is of a kind may depend on the chart that takes
it. What no other step touches is, after every history, as the last step of the kind has left it.
-/
namespace CorrelationPlot.Chart

/-- A kind of steps, told by the event and by the chart that meets it. -/
abbrev Kind := Chart → Event → Prop

/-- No step of the kind is taken in a history that begins with `c`. -/
def Never (kind : Kind) (c : Chart) (events : List Event) : Prop :=
  ∀ past e future, events = past ++ e :: future → ¬ kind (c.run past) e

/-- In the history that begins with `c`, the step with `e` is of the kind and none behind it is. -/
structure IsLast (kind : Kind) (c : Chart) (past : List Event) (e : Event) (future : List Event) :
    Prop where
  here : kind (c.run past) e
  later : Never kind (c.run (past ++ [e])) future

variable {kind : Kind} {c : Chart} {past events future : List Event} {e : Event}

theorem never_nil (kind : Kind) (c : Chart) : Never kind c [] := by
  intro past e future h
  simp at h

theorem never_snoc (h : Never kind c events) (last : ¬ kind (c.run events) e) :
    Never kind c (events ++ [e]) := by
  intro past e' future split
  -- The step is the new one, or it was in the history before.
  rcases List.eq_nil_or_concat future with rfl | ⟨front, e'', rfl⟩
  · obtain ⟨rfl, here⟩ := List.append_inj' split rfl
    cases here
    exact last
  · rw [List.concat_eq_append, ← List.cons_append, ← List.append_assoc] at split
    obtain ⟨rfl, -⟩ := List.append_inj' split rfl
    exact h past e' front rfl

theorem Never.tail (h : Never kind c (e :: events)) : Never kind ((c.step e).chart) events := by
  intro past e' future split
  exact h (e :: past) e' future (congrArg (e :: ·) split)

theorem IsLast.snoc (h : IsLast kind c past e future) {e' : Event}
    (last : ¬ kind (c.run (past ++ e :: future)) e') : IsLast kind c past e (future ++ [e']) where
  here := h.here
  later := by
    apply never_snoc h.later
    rwa [← run_append_cons]

/-- A history has no step of the kind, or a last one. -/
theorem never_or_last (kind : Kind) (c : Chart) (events : List Event) :
    Never kind c events ∨
      ∃ past e future, events = past ++ e :: future ∧ IsLast kind c past e future := by
  induction events using List.reverseRecOn with
  | nil => exact .inl (never_nil kind c)
  | append_singleton events e ih =>
      by_cases last : kind (c.run events) e
      · exact .inr ⟨events, e, [], rfl, last, never_nil kind _⟩
      · rcases ih with never | ⟨past, e', future, rfl, found⟩
        · exact .inl (never_snoc never last)
        · exact .inr ⟨past, e', future ++ [e], by simp, found.snoc last⟩

section Unchanged
variable {α : Type} {f : Chart → α}
  (keeps : ∀ d e, ¬ kind d e → f ((d.step e).chart) = f d)
include keeps

theorem run_of_never (h : Never kind c events) : f (c.run events) = f c := by
  induction events generalizing c with
  | nil => rfl
  | cons e events ih => exact (ih h.tail).trans (keeps c e (h [] e events rfl))

theorem run_of_last (h : IsLast kind c past e future) :
    f (c.run (past ++ e :: future)) = f (c.run (past ++ [e])) := by
  rw [run_append_cons]
  exact run_of_never keeps h.later

end Unchanged

end CorrelationPlot.Chart
