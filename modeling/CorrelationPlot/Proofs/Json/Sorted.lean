import CorrelationPlot.Json.Value
import Mathlib.Data.List.Induction
import Mathlib.Data.String.Basic

/-!
Members of an object in the order of their keys. Sorting gives every key one member, the last that
was written with it, and where no key is repeated it only moves the members.
-/
namespace CorrelationPlot.Json

/-- The value of a member; of several members with one key the last counts. -/
def member? (name : String) : List (String × Json) → Option Json
  | [] => none
  | (k, j) :: ms => (member? name ms).or (if k = name then some j else none)

/-- Keys ascend, so none is repeated. -/
def Ascending {α : Type} (ms : List (String × α)) : Prop := ms.Pairwise fun m n => m.1 < n.1

theorem member?_eq_none {name : String} {ms : List (String × Json)} (h : ∀ m ∈ ms, m.1 ≠ name) :
    member? name ms = none := by
  induction ms with
  | nil => rfl
  | cons m ms ih =>
      rw [member?, ih fun n hn => h n (List.mem_cons_of_mem _ hn), if_neg (h m List.mem_cons_self)]
      rfl

theorem mem_insertMember {key : String} {value : Json} {ms : List (String × Json)}
    {m : String × Json} (h : m ∈ insertMember key value ms) : m = (key, value) ∨ m ∈ ms := by
  induction ms with
  | nil => simpa [insertMember] using h
  | cons n ms ih =>
      rw [insertMember] at h
      split at h
      · simpa using h
      · split at h
        · rcases List.mem_cons.mp h with rfl | h
          · exact .inl rfl
          · exact .inr (List.mem_cons_of_mem _ h)
        · rcases List.mem_cons.mp h with rfl | h
          · exact .inr List.mem_cons_self
          · exact (ih h).imp_right (List.mem_cons_of_mem _)

theorem ascending_insertMember {key : String} {value : Json} {ms : List (String × Json)}
    (h : Ascending ms) : Ascending (insertMember key value ms) := by
  induction ms with
  | nil => exact List.pairwise_singleton _ _
  | cons n ms ih =>
      obtain ⟨first, rest⟩ := List.pairwise_cons.mp h
      rw [insertMember]
      split
      · next before =>
        refine List.pairwise_cons.mpr ⟨fun m hm => ?_, h⟩
        rcases List.mem_cons.mp hm with rfl | hm
        · exact before
        · exact lt_trans before (first m hm)
      · next notBefore =>
        split
        · next same =>
          subst same
          exact List.pairwise_cons.mpr ⟨first, rest⟩
        · next other =>
          refine List.pairwise_cons.mpr ⟨fun m hm => ?_, ih rest⟩
          rcases mem_insertMember hm with rfl | hm
          · exact lt_of_le_of_ne (not_lt.mp notBefore) fun same => other same.symm
          · exact first m hm

theorem member?_insertMember (name key : String) (value : Json) {ms : List (String × Json)}
    (h : Ascending ms) :
    member? name (insertMember key value ms) =
      if key = name then some value else member? name ms := by
  induction ms with
  | nil => rfl
  | cons n ms ih =>
      obtain ⟨first, rest⟩ := List.pairwise_cons.mp h
      rw [insertMember]
      split
      · next before =>
        rw [member?]
        split
        · next same =>
          subst same
          rw [member?_eq_none]
          · rfl
          · intro m hm
            rcases List.mem_cons.mp hm with rfl | hm
            · exact ne_of_gt before
            · exact ne_of_gt (lt_trans before (first m hm))
        · exact Option.or_none
      · split
        · next same =>
          subst same
          simp only [member?]
          split
          · next here =>
            subst here
            rw [member?_eq_none fun m hm => ne_of_gt (first m hm)]
            rfl
          · rfl
        · next other =>
          simp only [member?]
          rw [ih rest]
          split
          · rfl
          · rfl

theorem perm_insertMember {key : String} {value : Json} {ms : List (String × Json)}
    (fresh : ∀ m ∈ ms, m.1 ≠ key) : (insertMember key value ms).Perm ((key, value) :: ms) := by
  induction ms with
  | nil => exact .refl _
  | cons n ms ih =>
      rw [insertMember]
      split
      · exact .refl _
      · rw [if_neg fun same => fresh n List.mem_cons_self same.symm]
        have moved := (ih fun m hm => fresh m (List.mem_cons_of_mem _ hm)).cons n
        exact moved.trans (.swap _ _ _)

theorem sortMembers_snoc (ms : List (String × Json)) (m : String × Json) :
    sortMembers (ms ++ [m]) = insertMember m.1 m.2 (sortMembers ms) := by
  simp only [sortMembers, List.foldl_append, List.foldl_cons, List.foldl_nil]

theorem ascending_sortMembers (ms : List (String × Json)) : Ascending (sortMembers ms) := by
  induction ms using List.reverseRecOn with
  | nil => exact List.Pairwise.nil
  | append_singleton ms m ih =>
      rw [sortMembers_snoc]
      exact ascending_insertMember ih

theorem member?_snoc (name : String) (ms : List (String × Json)) (m : String × Json) :
    member? name (ms ++ [m]) = if m.1 = name then some m.2 else member? name ms := by
  induction ms with
  | nil => rfl
  | cons n ms ih =>
      simp only [List.cons_append, member?]
      rw [ih]
      split <;> rfl

/-- Sorting keeps what every key stands for. -/
theorem member?_sortMembers (name : String) (ms : List (String × Json)) :
    member? name (sortMembers ms) = member? name ms := by
  induction ms using List.reverseRecOn with
  | nil => rfl
  | append_singleton ms m ih =>
      rw [sortMembers_snoc, member?_insertMember _ _ _ (ascending_sortMembers ms), ih, member?_snoc]

theorem perm_sortMembers {ms : List (String × Json)} (distinct : (ms.map Prod.fst).Nodup) :
    (sortMembers ms).Perm ms := by
  induction ms using List.reverseRecOn with
  | nil => exact .refl _
  | append_singleton ms m ih =>
      rw [List.map_append, List.nodup_append] at distinct
      obtain ⟨front, -, apart⟩ := distinct
      have moved := ih front
      have fresh : ∀ n ∈ sortMembers ms, n.1 ≠ m.1 := fun n hn =>
        apart n.1 (List.mem_map_of_mem (moved.mem_iff.mp hn)) m.1 (by simp)
      rw [sortMembers_snoc]
      have last := (List.perm_append_singleton m ms).symm
      exact (perm_insertMember fresh).trans ((moved.cons m).trans last)

theorem sortedItems_eq_map (js : List Json) : sortedItems js = js.map sorted := by
  induction js with
  | nil => rfl
  | cons j js ih => rw [sortedItems, ih, List.map_cons]

theorem sortedMembers_eq_map (ms : List (String × Json)) :
    sortedMembers ms = ms.map fun m => (m.1, m.2.sorted) := by
  induction ms with
  | nil => rfl
  | cons m ms ih => rw [sortedMembers, ih, List.map_cons]

theorem member?_sortedMembers (name : String) (ms : List (String × Json)) :
    member? name (sortedMembers ms) = (member? name ms).map sorted := by
  induction ms with
  | nil => rfl
  | cons m ms ih =>
      simp only [sortedMembers, member?]
      rw [ih]
      cases member? name ms with
      | some j => rfl
      | none => split <;> rfl

end CorrelationPlot.Json
