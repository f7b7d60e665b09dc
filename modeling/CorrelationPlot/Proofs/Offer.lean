import CorrelationPlot.Field.Offer

/-!
Changes of the offer and of the selections made from it. A field is known by its full name. The
offer drops the removed fields before it takes up the added ones, so a field that is both added and
removed stays on offer; a selection never moves to a field with a removed name.
-/
namespace CorrelationPlot

namespace Offer

theorem offers_iff {o : Offer} {f : Selector} : o.offers f = true ↔ f.fullName ∈ o.names := by
  simp [offers, names, Selector.same]

theorem mem_names {o : Offer} {f : Selector} (h : f ∈ o) : f.fullName ∈ o.names :=
  List.mem_map_of_mem h

theorem mem_numeric {o : Offer} {f : Selector} : f ∈ o.numeric ↔ f ∈ o ∧ f.isNumeric = true :=
  List.mem_filter

theorem mem_remove {o : Offer} {removed : List Selector} {f : Selector} :
    f ∈ o.remove removed ↔ f ∈ o ∧ f.fullName ∉ names removed := by
  rw [remove, List.mem_filter, Bool.not_eq_true', ← Bool.not_eq_true, offers_iff]

theorem mem_names_remove {o : Offer} {removed : List Selector} {name : String} :
    name ∈ (o.remove removed).names ↔ name ∈ o.names ∧ name ∉ names removed := by
  simp only [names, List.mem_map, mem_remove]
  constructor
  · rintro ⟨f, ⟨offered, kept⟩, rfl⟩
    exact ⟨⟨f, offered, rfl⟩, kept⟩
  · rintro ⟨⟨f, offered, rfl⟩, kept⟩
    exact ⟨f, ⟨offered, kept⟩, rfl⟩

theorem remove_apart {o : Offer} {removed : List Selector}
    (apart : ∀ f ∈ o, f.fullName ∉ names removed) : o.remove removed = o :=
  List.filter_eq_self.mpr fun f hf => (List.mem_filter.mp (mem_remove.mpr ⟨hf, apart f hf⟩)).2

theorem mem_names_add {o : Offer} {f : Selector} {name : String} :
    name ∈ (o.add f).names ↔ name ∈ o.names ∨ name = f.fullName := by
  rw [add]
  split
  · next taken =>
    rw [offers_iff] at taken
    constructor
    · exact .inl
    · rintro (offered | rfl)
      · exact offered
      · exact taken
  · simp [names]

theorem mem_names_foldl_add {o : Offer} {added : List Selector} {name : String} :
    name ∈ names (added.foldl add o) ↔ name ∈ o.names ∨ name ∈ names added := by
  induction added generalizing o with
  | nil => simp [names]
  | cons f added ih =>
      rw [List.foldl_cons, ih, mem_names_add, or_assoc]
      simp [names]

/-- Of the added fields, those come in that are the first of their name and find it free. -/
theorem mem_foldl_add {o : Offer} {added : List Selector} {g : Selector} :
    g ∈ added.foldl add o ↔
      g ∈ o ∨ g.fullName ∉ o.names ∧ added.find? (·.same g) = some g := by
  induction added generalizing o with
  | nil => simp
  | cons f added ih =>
      rw [List.foldl_cons, ih, List.find?_cons, mem_names_add, add]
      -- A field of the same name as `g` closes the offer to it, any other leaves it as it was.
      by_cases same : f.fullName = g.fullName
      · have found : f.same g = true := decide_eq_true same
        rw [found]
        split
        · next taken =>
          have offered : g.fullName ∈ o.names := same ▸ offers_iff.mp taken
          simp [offered]
        · next free =>
          have fresh : g.fullName ∉ o.names := same ▸ mt offers_iff.mpr free
          simp [fresh, same, eq_comm]
      · have other : f.same g = false := decide_eq_false same
        have ne : g ≠ f := fun h => same (congrArg Selector.fullName h).symm
        rw [other]
        split <;> simp [ne, Ne.symm same]

theorem mem_change {o : Offer} {added removed : List Selector} {g : Selector} :
    g ∈ o.change added removed ↔
      g ∈ o ∧ g.fullName ∉ names removed ∨
      ¬ (g.fullName ∈ o.names ∧ g.fullName ∉ names removed) ∧
        added.find? (·.same g) = some g := by
  rw [change, mem_foldl_add, mem_remove, mem_names_remove]

theorem mem_names_change {o : Offer} {added removed : List Selector} {name : String} :
    name ∈ (o.change added removed).names ↔
      name ∈ o.names ∧ name ∉ names removed ∨ name ∈ names added := by
  rw [change, mem_names_foldl_add, mem_names_remove]

end Offer

section Substitute
variable {selected : Option Selector} {available added removed : List Selector}
  {accept : Selector → Bool} {f g : Selector}

theorem kept_or_lost (selected : Option Selector) (removed : List Selector) :
    (∃ f, selected = some f ∧ f.fullName ∉ Offer.names removed) ∨
      ∀ f, selected = some f → f.fullName ∈ Offer.names removed := by
  cases selected with
  | none => exact .inr nofun
  | some f =>
      by_cases h : f.fullName ∈ Offer.names removed
      · refine .inr ?_
        rintro _ ⟨⟩
        exact h
      · exact .inl ⟨f, rfl, h⟩

theorem substitute_kept (h : f.fullName ∉ Offer.names removed) :
    substitute (some f) available added removed accept = some f :=
  if_neg (mt Offer.offers_iff.mp h)

theorem substitute_lost (h : ∀ f, selected = some f → f.fullName ∈ Offer.names removed) :
    substitute selected available added removed accept =
      (Offer.remove (available ++ added) removed).find? accept := by
  cases selected with
  | none => rfl
  | some f => exact if_pos (Offer.offers_iff.mpr (h f rfl))

/-- A selection after a change is the one before, or an acceptable field that took its place; either
way its name was not removed. -/
theorem substitute_eq_some (h : substitute selected available added removed accept = some g) :
    g.fullName ∉ Offer.names removed ∧
      (selected = some g ∨ g ∈ available ++ added ∧ accept g = true) := by
  rcases kept_or_lost selected removed with ⟨f, rfl, kept⟩ | lost
  · rw [substitute_kept kept] at h
    cases h
    exact ⟨kept, .inl rfl⟩
  · rw [substitute_lost lost] at h
    obtain ⟨mem, kept⟩ := Offer.mem_remove.mp (List.mem_of_find?_eq_some h)
    exact ⟨kept, .inr ⟨mem, List.find?_some h⟩⟩

theorem substitute_eq_none :
    substitute selected available added removed accept = none ↔
      (∀ f, selected = some f → f.fullName ∈ Offer.names removed) ∧
      ∀ g ∈ available ++ added, accept g = true → g.fullName ∈ Offer.names removed := by
  rcases kept_or_lost selected removed with ⟨f, rfl, kept⟩ | lost
  · rw [substitute_kept kept]
    exact iff_of_false nofun fun h => kept (h.1 f rfl)
  · rw [substitute_lost lost, List.find?_eq_none]
    constructor
    · intro h
      refine ⟨lost, fun g mem accepted => Decidable.byContradiction fun kept => ?_⟩
      exact h g (Offer.mem_remove.mpr ⟨mem, kept⟩) accepted
    · rintro ⟨-, none⟩ g mem accepted
      obtain ⟨mem, kept⟩ := Offer.mem_remove.mp mem
      exact kept (none g mem accepted)

end Substitute
end CorrelationPlot
