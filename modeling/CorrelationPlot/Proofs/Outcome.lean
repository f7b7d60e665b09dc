/-!
Computations that can fail. One that succeeds is taken apart into its steps, each of which succeeds;
one that fails, into the steps before the one that fails. One that goes through a list fails at the
first element that makes it fail.
-/
namespace CorrelationPlot

namespace Outcome
variable {ε α β : Type}

theorem bind_eq_ok {x : Except ε α} {f : α → Except ε β} {b : β} :
    x >>= f = .ok b ↔ ∃ a, x = .ok a ∧ f a = .ok b := by
  cases x <;> simp [bind, Except.bind]

theorem map_eq_ok {x : Except ε α} {f : α → β} {b : β} :
    x.map f = .ok b ↔ ∃ a, x = .ok a ∧ f a = b := by
  cases x <;> simp [Except.map]

theorem bind_eq_error {x : Except ε α} {f : α → Except ε β} {e : ε} :
    x >>= f = .error e ↔ x = .error e ∨ ∃ a, x = .ok a ∧ f a = .error e := by
  cases x <;> simp [bind, Except.bind]

theorem map_eq_error {x : Except ε α} {f : α → β} {e : ε} : x.map f = .error e ↔ x = .error e := by
  cases x <;> simp [Except.map]

theorem eq_ok_get {x : Except ε α} (h : x.toOption.isSome) : x = .ok (x.toOption.get h) := by
  cases x with
  | ok a => rfl
  | error e => cases h

end Outcome

section First
variable {α : Type} {P : α → Prop} {Q : Nat → α → Prop} {a : α} {as : List α}

/-- Some element has `Q` of its number, and all before it have `P`. -/
def First (P : α → Prop) (Q : Nat → α → Prop) (as : List α) : Prop :=
  ∃ before a after, as = before ++ a :: after ∧ (∀ b ∈ before, P b) ∧ Q before.length a

theorem not_first_nil : ¬ First P Q [] := by
  rintro ⟨before, a, after, split, -⟩
  simp at split

theorem first_cons : First P Q (a :: as) ↔ Q 0 a ∨ P a ∧ First P (fun k => Q (k + 1)) as := by
  constructor
  · rintro ⟨_ | ⟨b, before⟩, a', after, split, kept, here⟩
    · cases split
      exact .inl here
    · cases split
      obtain ⟨first, kept⟩ := List.forall_mem_cons.mp kept
      exact .inr ⟨first, before, a', after, rfl, kept, here⟩
  · rintro (here | ⟨first, before, a', after, rfl, kept, here⟩)
    · exact ⟨[], a, as, rfl, nofun, here⟩
    · exact ⟨a :: before, a', after, rfl, List.forall_mem_cons.mpr ⟨first, kept⟩, here⟩

end First
end CorrelationPlot
