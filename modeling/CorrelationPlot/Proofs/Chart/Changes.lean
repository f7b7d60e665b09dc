import CorrelationPlot.Proofs.Chart.Selections

/-!
A change of the fields in one event or in two. A change that adds and removes fields does what a
removal and then an addition do, if no name is in both lists: where the removal finds no other field
for a selection, the addition finds the one that the change would have found.
-/
namespace CorrelationPlot

namespace Offer

theorem remove_nil (o : Offer) : o.remove [] = o := by
  simp [remove, offers]

theorem remove_append (o o' : Offer) (removed : List Selector) :
    remove (o ++ o') removed = o.remove removed ++ o'.remove removed :=
  List.filter_append _ _

theorem numeric_remove (o : Offer) (removed : List Selector) :
    (o.remove removed).numeric = remove o.numeric removed := by
  simp only [numeric, remove, List.filter_filter, Bool.and_comm]

/-- The offer does not even need the lists to be apart: it drops fields before it takes up others.
-/
theorem change_in_two (o : Offer) (added removed : List Selector) :
    (o.change [] removed).change added [] = o.change added removed := by
  have dropped : o.change [] removed = o.remove removed := rfl
  rw [dropped, change, change, remove_nil]

end Offer

/-- A selection that is replaced by the removal has the field that comes first in the whole change;
one that the removal empties is filled by the first field that is added. -/
theorem substitute_in_two (selected : Option Selector) (available : List Selector)
    {added removed : List Selector} (apart : ∀ f ∈ added, f.fullName ∉ Offer.names removed)
    (accept : Selector → Bool) :
    substitute (substitute selected available [] removed accept)
        (Offer.remove available removed) added [] accept =
      substitute selected available added removed accept := by
  have kept (f : Selector) : f.fullName ∉ Offer.names [] := List.not_mem_nil
  rcases kept_or_lost selected removed with ⟨f, rfl, stays⟩ | lost
  · rw [substitute_kept stays, substitute_kept stays, substitute_kept (kept f)]
  · rw [substitute_lost lost, substitute_lost lost, List.append_nil, Offer.remove_append,
      Offer.remove_apart apart, List.find?_append]
    cases found : (Offer.remove available removed).find? accept with
    | some f => rw [substitute_kept (kept f), Option.some_or]
    | none =>
        have none_lost (f : Selector) (h : none = some f) : f.fullName ∈ Offer.names [] := nomatch h
        rw [substitute_lost none_lost, Offer.remove_nil, List.find?_append, found]

namespace Chart

/-- A change of the fields leaves the chart in the state in which a removal and then an addition
leave it, if no field is both added and removed. -/
theorem change_of_fields_in_two (c : Chart) {added removed : List Selector}
    (apart : ∀ f ∈ added, f.fullName ∉ Offer.names removed) :
    (c.step (.fields added removed)).chart = c.run [.fields [] removed, .fields added []] := by
  have selection (before : Option Selector) :
      substitute (substitute before c.offer.numeric [] removed (·.isNumeric))
          (c.offer.change [] removed).numeric added [] (·.isNumeric) =
        substitute before c.offer.numeric added removed (·.isNumeric) := by
    have dropped : c.offer.change [] removed = c.offer.remove removed := rfl
    rw [dropped, Offer.numeric_remove, substitute_in_two before c.offer.numeric apart]
  simp only [run, List.foldl_cons, List.foldl_nil, step, updateFields, reselect, selection,
    Offer.change_in_two]

/-- A chart of the flow, its only numeric field, against nothing. -/
def flowAlone : Chart := new { view := ⟨some flow, none, .scatter⟩ } [flow, valve]

/-- The removal of the flow empties the selection, and the addition fills both from the level. Of
the lists, one has a field that is on offer, the other one that is not, and both repeat a field. -/
theorem level_for_flow :
    (∀ f ∈ [valve, level, level], f.fullName ∉ Offer.names [flow, .named "pump" true, flow]) ∧
      (flowAlone.step (.fields [valve, level, level] [flow, .named "pump" true, flow])).chart =
        flowAlone.run
          [.fields [] [flow, .named "pump" true, flow], .fields [valve, level, level] []] ∧
      ∀ axis, (flowAlone.run [.fields [] [flow, .named "pump" true, flow]]).selection axis = none ∧
        (flowAlone.run [.fields [] [flow, .named "pump" true, flow],
          .fields [valve, level, level] []]).selection axis = some level := by
  have apart : ∀ f ∈ [valve, level, level],
      f.fullName ∉ Offer.names [flow, .named "pump" true, flow] := by decide
  refine ⟨apart, change_of_fields_in_two flowAlone apart, fun axis => ?_⟩
  cases axis <;> exact ⟨rfl, rfl⟩

end Chart
end CorrelationPlot
