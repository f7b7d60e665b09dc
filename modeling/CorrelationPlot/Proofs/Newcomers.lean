import CorrelationPlot.Proofs.Offer

/-!
What a change makes of an offer, field by field. The fields whose names are not removed stay as they
were, and behind them come the added fields, of each name the first, unless a field that stayed has
the name. So names that were distinct stay distinct through any number of changes.
-/
namespace CorrelationPlot.Offer

theorem remove_eq (o : Offer) (removed : List Selector) :
    o.remove removed = o.filter (·.fullName ∉ names removed) := by
  refine List.filter_congr fun f _ => ?_
  simp only [← offers_iff, decide_not, Bool.decide_eq_true]

/-- The fields that come in when others are added: of each name the first, if the name is free. -/
def newcomers (o : Offer) (added : List Selector) : List Selector :=
  (added.eraseDupsBy Selector.same).filter (·.fullName ∉ o.names)

/-- A field is turned away for its name on offer, or for an earlier one among those added. -/
theorem offers_seen (o : Offer) (seen : List Selector) (f : Selector) :
    offers (o ++ seen.reverse.filter (·.fullName ∉ o.names)) f = true ↔
      f.fullName ∈ o.names ∨ seen.any f.same = true := by
  rw [offers_iff, names, List.map_append, List.mem_append]
  by_cases taken : f.fullName ∈ o.names
  · exact iff_of_true (.inl taken) (.inl taken)
  · have before : o.map (·.fullName) = o.names := rfl
    simp only [before, taken, false_or, List.mem_map, List.mem_filter, List.mem_reverse,
      List.any_eq_true, Selector.same, decide_eq_true_eq]
    constructor
    · rintro ⟨g, ⟨mem, -⟩, name⟩
      exact ⟨g, mem, name.symm⟩
    · rintro ⟨g, mem, name⟩
      exact ⟨g, ⟨mem, name ▸ taken⟩, name.symm⟩

/-- One field more has been seen, if it is the first of its name. -/
theorem add_seen (o : Offer) (seen : List Selector) (f : Selector) :
    add (o ++ seen.reverse.filter (·.fullName ∉ o.names)) f =
      o ++ (bif seen.any f.same then seen else f :: seen).reverse.filter
        (·.fullName ∉ o.names) := by
  rw [add]
  cases again : seen.any f.same with
  | true => rw [if_pos ((offers_seen o seen f).mpr (.inr again)), cond_true]
  | false =>
      rw [cond_false, List.reverse_cons, List.filter_append]
      by_cases taken : f.fullName ∈ o.names
      · rw [if_pos ((offers_seen o seen f).mpr (.inl taken))]
        simp [taken]
      · rw [if_neg (mt (offers_seen o seen f).mp (by simp [taken, again]))]
        simp [taken]

theorem foldl_add_seen (o : Offer) (seen added : List Selector) :
    added.foldl add (o ++ seen.reverse.filter (·.fullName ∉ o.names)) =
      o ++ (List.eraseDupsBy.loop Selector.same added seen).filter (·.fullName ∉ o.names) := by
  -- What has been added so far is what the loop has seen, the last field in front.
  induction added generalizing seen with
  | nil => rfl
  | cons f added ih =>
      rw [List.foldl_cons, add_seen, ih, List.eraseDupsBy.loop]
      cases seen.any f.same <;> rfl

theorem foldl_add_eq (o : Offer) (added : List Selector) :
    added.foldl add o = o ++ o.newcomers added := by
  have start := foldl_add_seen o [] added
  rwa [List.reverse_nil, List.filter_nil, List.append_nil] at start

/-- Fields whose names are all on offer change nothing. -/
theorem foldl_add_known {o : Offer} {added : List Selector}
    (known : ∀ f ∈ added, f.fullName ∈ o.names) : added.foldl add o = o := by
  induction added with
  | nil => rfl
  | cons f added ih =>
      rw [List.forall_mem_cons] at known
      rw [List.foldl_cons, add, if_pos (offers_iff.mpr known.1), ih known.2]

section Distinct
variable {o : Offer}

theorem nodup_names_add (f : Selector) (distinct : o.names.Nodup) : (o.add f).names.Nodup := by
  rw [add]
  split
  · exact distinct
  · next free =>
    rw [names, List.map_append, List.map_singleton, List.nodup_append]
    refine ⟨distinct, List.pairwise_singleton _ _, ?_⟩
    rintro name offered _ new rfl
    exact free (offers_iff.mpr (List.mem_singleton.mp new ▸ offered))

theorem nodup_names_foldl_add (added : List Selector) (distinct : o.names.Nodup) :
    (names (added.foldl add o)).Nodup := by
  induction added generalizing o with
  | nil => exact distinct
  | cons f added ih => exact ih (nodup_names_add f distinct)

theorem nodup_names_change (added removed : List Selector) (distinct : o.names.Nodup) :
    (o.change added removed).names.Nodup :=
  nodup_names_foldl_add added (distinct.sublist (List.filter_sublist.map _))

end Distinct

/-- The offer after some changes, each of which adds fields and removes fields. -/
def changes (o : Offer) (list : List (List Selector × List Selector)) : Offer :=
  list.foldl (fun o c => o.change c.1 c.2) o

theorem nodup_names_changes {o : Offer} (list : List (List Selector × List Selector))
    (distinct : o.names.Nodup) : (o.changes list).names.Nodup := by
  induction list generalizing o with
  | nil => exact distinct
  | cons c list ih => exact ih (nodup_names_change c.1 c.2 distinct)

theorem change_again {o : Offer} {added removed : List Selector}
    (apart : ∀ f ∈ added, f.fullName ∉ names removed) :
    (o.change added removed).change added removed = o.change added removed := by
  have stays : ∀ f ∈ o.change added removed, f.fullName ∉ names removed := by
    intro f offered
    rcases mem_names_change.mp (mem_names offered) with ⟨-, kept⟩ | new
    · exact kept
    · obtain ⟨g, mem, name⟩ := List.mem_map.mp new
      exact name ▸ apart g mem
  have known : ∀ f ∈ added, f.fullName ∈ (o.change added removed).names :=
    fun f mem => mem_names_change.mpr (.inr (mem_names mem))
  calc (o.change added removed).change added removed
    _ = added.foldl add ((o.change added removed).remove removed) := rfl
    _ = added.foldl add (o.change added removed) := by rw [remove_apart stays]
    _ = o.change added removed := foldl_add_known known

/-- A change keeps the fields whose names are not removed, in their order, and then takes up the
first added field of each name that no kept field has. -/
theorem change_keeps_then_adds (o : Offer) (added removed : List Selector) :
    let kept := o.filter (·.fullName ∉ names removed)
    let after := o.change added removed
    after = kept ++ (added.eraseDupsBy Selector.same).filter (·.fullName ∉ names kept) ∧
      (o.names.Nodup → ∀ list, (o.changes list).names.Nodup) ∧
      (∀ f ∈ added, f.fullName ∈ after.names) ∧
      (∀ f ∈ removed, f.fullName ∉ names added → f.fullName ∉ after.names) ∧
      ((∀ f ∈ added, f.fullName ∉ names removed) → after.change added removed = after) := by
  intro kept after
  refine ⟨?_, fun distinct list => nodup_names_changes list distinct, ?_, ?_, change_again⟩
  · calc after
      _ = o.remove removed ++ newcomers (o.remove removed) added := foldl_add_eq _ added
      _ = kept ++ newcomers kept added := by rw [remove_eq]
  · intro f mem
    exact mem_names_change.mpr (.inr (mem_names mem))
  · intro f mem other present
    rcases mem_names_change.mp present with ⟨-, stays⟩ | new
    · exact stays (mem_names mem)
    · exact other new

def measured : Offer := [.named "flow" true, .named "level" true]

/-- One name is on offer, the other comes twice. -/
def fitted : List Selector := [.named "level" false, .named "pump" true, .named "pump" false]

/-- One name is on offer, the other is not. -/
def unplugged : List Selector := [.named "flow" false, .named "valve" true]

theorem measured_changed :
    measured.change fitted unplugged = [.named "level" true, .named "pump" true] ∧
      (measured.names.Nodup ∧
        (measured.changes [(fitted, unplugged), (unplugged, fitted), (fitted, [])]).names.Nodup) ∧
      "pump" ∈ (measured.change fitted unplugged).names ∧
      ("flow" ∉ names fitted ∧ "flow" ∉ (measured.change fitted unplugged).names) ∧
      (∀ f ∈ fitted, f.fullName ∉ names unplugged) ∧
        (measured.change fitted unplugged).change fitted unplugged =
          measured.change fitted unplugged := by
  obtain ⟨fields, distinct, present, absent, again⟩ :=
    change_keeps_then_adds measured fitted unplugged
  have names_distinct : measured.names.Nodup := by decide
  have gone : "flow" ∉ names fitted := by decide
  have apart : ∀ f ∈ fitted, f.fullName ∉ names unplugged := by decide
  refine ⟨fields.trans rfl, ⟨names_distinct, distinct names_distinct _⟩, ?_, ⟨gone, ?_⟩, apart,
    again apart⟩
  · exact present (.named "pump" true) (by decide)
  · exact absent (.named "flow" false) (by decide) gone

end CorrelationPlot.Offer
