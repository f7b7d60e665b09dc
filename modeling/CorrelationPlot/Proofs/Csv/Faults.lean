import CorrelationPlot.Proofs.Csv.Grouping

/-!
Why no table is read from a document. Its headers are judged first, then the column that splits it,
then its records, of which the first faulty one is reported. A column that is found changes nothing
about that.
-/
namespace CorrelationPlot.Csv
open Outcome

/-- All fields of a record are well-formed UTF-8. -/
def Encoded (r : Record) : Prop := ∀ field ∈ r, ByteArray.IsValidUTF8 ⟨field.toArray⟩

/-- A record that can be read: as wide as the headers, and well-formed. -/
structure Sound (width : Nat) (r : Record) : Prop where
  wide : r.length = width
  encoded : Encoded r

/-- Why a record cannot be read. A wrong width goes before everything in the fields. -/
inductive Faulty (width : Nat) (r : Record) : RecordFault → Prop where
  | width (other : r.length ≠ width) : Faulty width r (.width width r.length)
  | encoding (wide : r.length = width) (garbled : ¬ Encoded r) : Faulty width r .encoding

section Records
variable {width : Nat} {r : Record}

theorem exists_fieldText?_iff {field : Bytes} :
    (∃ text, fieldText? field = some text) ↔ ByteArray.IsValidUTF8 ⟨field.toArray⟩ := by
  rw [fieldText?, String.fromUTF8?]
  split <;> simp [*]

theorem exists_fieldTexts_iff : (∃ ts, r.mapM fieldText? = some ts) ↔ Encoded r := by
  induction r with
  | nil => simp [Encoded]
  | cons field r ih =>
      rw [Encoded, List.forall_mem_cons, ← exists_fieldText?_iff, ← Encoded, ← ih]
      simp only [List.mapM_cons, Option.pure_def, Option.bind_eq_bind, Option.bind_eq_some_iff,
        Option.some.injEq]
      constructor
      · rintro ⟨_, text, htext, texts, htexts, -⟩
        exact ⟨⟨text, htext⟩, texts, htexts⟩
      · rintro ⟨⟨text, htext⟩, texts, htexts⟩
        exact ⟨_, text, htext, texts, htexts, rfl⟩

theorem exists_texts_iff : (∃ ts, texts width r = .ok ts) ↔ Sound width r := by
  simp only [texts_eq_ok, exists_and_left, exists_fieldTexts_iff]
  exact ⟨fun ⟨wide, encoded⟩ => ⟨wide, encoded⟩, fun sound => ⟨sound.wide, sound.encoded⟩⟩

theorem texts_eq_error {f : RecordFault} : texts width r = .error f ↔ Faulty width r f := by
  rw [texts]
  split
  · next other =>
    constructor
    · rintro ⟨⟩
      exact .width other
    · rintro (_ | ⟨wide, -⟩)
      · rfl
      · exact absurd wide other
  · next same =>
    have wide : r.length = width := Decidable.not_not.mp same
    split
    · next ts read =>
      have encoded : Encoded r := exists_fieldTexts_iff.mp ⟨ts, read⟩
      constructor
      · nofun
      · rintro (other | ⟨-, garbled⟩)
        · exact absurd wide other
        · exact absurd encoded garbled
    · next unread =>
      have garbled : ¬ Encoded r := by
        rw [← exists_fieldTexts_iff, unread]
        simp
      constructor
      · rintro ⟨⟩
        exact .encoding wide garbled
      · rintro (other | -)
        · exact absurd wide other
        · rfl

theorem exists_allTexts_iff {number : Nat} {rs : List Record} :
    (∃ recs, allTexts width number rs = .ok recs) ↔ ∀ r ∈ rs, Sound width r := by
  induction rs generalizing number with
  | nil => simp [allTexts]
  | cons r rs ih =>
      rw [List.forall_mem_cons, ← exists_texts_iff, ← @ih (number + 1), allTexts]
      cases texts width r with
      | error f => simp
      | ok ts => simp [map_eq_ok]

/-- The fault of a list of records is that of the first faulty one, with its number. -/
theorem allTexts_eq_error {number : Nat} {rs : List Record} {f : LoadFault} :
    allTexts width number rs = .error f ↔ First (Sound width)
      (fun k r => ∃ cause, Faulty width r cause ∧ f = .record (number + k) cause) rs := by
  induction rs generalizing number with
  | nil => simp [allTexts, not_first_nil]
  | cons r rs ih =>
      rw [first_cons, ← exists_texts_iff, allTexts]
      simp only [← texts_eq_error]
      cases read : texts width r with
      | error cause => simp [eq_comm]
      | ok ts => simp [map_eq_error, ih, texts_eq_error, Nat.add_assoc, Nat.add_comm 1]

end Records

section Headers
variable {rs : List Record} {headers : List String} {f : LoadFault}

theorem headerTexts_eq_ok_iff :
    headerTexts rs = .ok headers ↔ (rs.headD []).mapM fieldText? = some headers := by
  refine ⟨headerTexts_eq_ok, fun read => ?_⟩
  cases rs with
  | nil =>
      cases read
      rfl
  | cons r rs =>
      have all : texts r.length r = .ok headers := texts_eq_ok.mpr ⟨rfl, read⟩
      rw [headerTexts, all]
      rfl

theorem headerTexts_eq_error :
    headerTexts rs = .error f ↔ ¬ Encoded (rs.headD []) ∧ f = .headers .encoding := by
  cases rs with
  | nil => simp [headerTexts, Encoded]
  | cons r rs =>
      rw [List.headD_cons, headerTexts]
      cases read : texts r.length r with
      | ok ts =>
          obtain ⟨-, encoded⟩ := exists_texts_iff.mp ⟨ts, read⟩
          simp [Except.mapError, encoded]
      | error cause =>
          obtain other | ⟨-, garbled⟩ := texts_eq_error.mp read
          · exact absurd rfl other
          · simp [Except.mapError, garbled, eq_comm]

theorem grouping_eq_error {groupBy : Option String} : grouping headers groupBy = .error f ↔
    ∃ name ∈ groupBy, name ∉ headers ∧ f = .noGroupColumn name := by
  cases groupBy with
  | none => simp [grouping]
  | some name =>
      rw [grouping]
      cases found : headers.idxOf? name with
      | none => simp [List.idxOf?_eq_none_iff.mp found, eq_comm]
      | some column =>
        have known : name ∈ headers := by
          by_contra missing
          rw [List.idxOf?_eq_none_iff.mpr missing] at found
          cases found
        simp [known]

theorem exists_grouping_iff {groupBy : Option String} :
    (∃ split, grouping headers groupBy = .ok split) ↔ ∀ name ∈ groupBy, name ∈ headers := by
  have refused (f : LoadFault) : grouping headers groupBy = .error f ↔ _ := grouping_eq_error
  cases grouped : grouping headers groupBy with
  | ok split =>
    simp only [grouped, reduceCtorEq, false_iff] at refused
    refine iff_of_true ⟨split, rfl⟩ fun name asked => ?_
    by_contra missing
    exact refused _ ⟨name, asked, missing, rfl⟩
  | error f =>
    obtain ⟨name, asked, missing, -⟩ := (refused f).mp grouped
    exact iff_of_false nofun fun known => missing (known name asked)

end Headers

/-- Why no table is read. -/
inductive Refused (bytes : Bytes) (groupBy : Option String) : LoadFault → Prop where
  | headers (garbled : ¬ Encoded ((records bytes).headD [])) :
      Refused bytes groupBy (.headers .encoding)
  | column {headers : List String} {name : String}
      (read : ((records bytes).headD []).mapM fieldText? = some headers)
      (asked : name ∈ groupBy) (missing : name ∉ headers) :
      Refused bytes groupBy (.noGroupColumn name)
  | record {headers : List String} {before after : List Record} {r : Record} {cause : RecordFault}
      (read : ((records bytes).headD []).mapM fieldText? = some headers)
      (known : ∀ name ∈ groupBy, name ∈ headers)
      (split : (records bytes).tail = before ++ r :: after)
      (sound : ∀ r' ∈ before, Sound headers.length r') (faulty : Faulty headers.length r cause) :
      Refused bytes groupBy (.record (before.length + 1) cause)

section Tables
variable {bytes : Bytes} {groupBy groupBy' : Option String} {f : LoadFault}

theorem table_eq_error : table bytes groupBy = .error f ↔ Refused bytes groupBy f := by
  simp only [table, bind_eq_error, headerTexts_eq_error, headerTexts_eq_ok_iff, grouping_eq_error,
    allTexts_eq_error, reduceCtorEq, and_false, exists_false, or_false]
  constructor
  · rintro (⟨garbled, rfl⟩ | ⟨headers, read, ⟨name, asked, missing, rfl⟩ | ⟨split, grouped, first⟩⟩)
    · exact .headers garbled
    · exact .column read asked missing
    · obtain ⟨before, r, after, whole, sound, cause, faulty, rfl⟩ := first
      rw [Nat.add_comm]
      exact .record read (exists_grouping_iff.mp ⟨split, grouped⟩) whole sound faulty
  · intro refused
    cases refused with
    | headers garbled => exact .inl ⟨garbled, rfl⟩
    | column read asked missing => exact .inr ⟨_, read, .inl ⟨_, asked, missing, rfl⟩⟩
    | record read known whole sound faulty =>
        obtain ⟨split, grouped⟩ := exists_grouping_iff.mpr known
        rw [Nat.add_comm]
        exact .inr ⟨_, read, .inr ⟨split, grouped, _, _, _, whole, sound, _, faulty, rfl⟩⟩

theorem exists_table_iff : (∃ t, table bytes groupBy = .ok t) ↔ ∃ headers,
    ((records bytes).headD []).mapM fieldText? = some headers ∧
      (∀ name ∈ groupBy, name ∈ headers) ∧ ∀ r ∈ (records bytes).tail, Sound headers.length r := by
  simp only [table, bind_eq_ok, headerTexts_eq_ok_iff]
  constructor
  · rintro ⟨t, headers, read, split, grouped, recs, sound, -⟩
    exact ⟨headers, read, exists_grouping_iff.mp ⟨split, grouped⟩,
      exists_allTexts_iff.mp ⟨recs, sound⟩⟩
  · rintro ⟨headers, read, known, sound⟩
    obtain ⟨split, grouped⟩ := exists_grouping_iff.mpr known
    obtain ⟨recs, all⟩ := exists_allTexts_iff.mpr sound
    exact ⟨_, headers, read, split, grouped, recs, all, rfl⟩

/-- A fault does not depend on the column, as long as there is no fault in the column itself. -/
theorem Refused.regrouped {headers : List String}
    (read : ((records bytes).headD []).mapM fieldText? = some headers)
    (known : ∀ name ∈ groupBy, name ∈ headers) (known' : ∀ name ∈ groupBy', name ∈ headers)
    (h : Refused bytes groupBy f) : Refused bytes groupBy' f := by
  cases h with
  | headers garbled => exact .headers garbled
  | column read' asked missing =>
      cases read.symm.trans read'
      exact absurd (known _ asked) missing
  | record read' _ split sound faulty =>
      cases read.symm.trans read'
      exact .record read known' split sound faulty

end Tables

/-- When a table is read from a document, and if not, why. Headers that are not well-formed go
before all. A column that they do not name is reported before any record is looked at. Of the
records the first faulty one is reported with its number, which counts from one. -/
theorem table_first_fault (bytes : Bytes) (groupBy : Option String) :
    (∀ f, table bytes groupBy = .error f ↔ Refused bytes groupBy f) ∧
    ((∃ t, table bytes groupBy = .ok t) ↔ ∃ headers,
      ((records bytes).headD []).mapM fieldText? = some headers ∧
        (∀ name ∈ groupBy, name ∈ headers) ∧
        ∀ r ∈ (records bytes).tail, Sound headers.length r) ∧
    (∀ headers name, ((records bytes).headD []).mapM fieldText? = some headers → name ∈ headers →
      ∀ f, table bytes (some name) = .error f ↔ table bytes none = .error f) ∧
    (∀ name, (LoadFault.noGroupColumn name).message =
      "Group-by column '" ++ name ++ "' not found") ∧
    ∀ number cause, (LoadFault.record number cause).message =
      "Failed to read CSV record " ++ Digits.text number := by
  refine ⟨fun f => table_eq_error, exists_table_iff, fun headers name read known f => ?_,
    fun name => rfl, fun number cause => rfl⟩
  have one : ∀ name' ∈ some name, name' ∈ headers := by
    rintro _ ⟨⟩
    exact known
  have none : ∀ name' ∈ (none : Option String), name' ∈ headers := nofun
  rw [table_eq_error, table_eq_error]
  exact ⟨Refused.regrouped read one none, Refused.regrouped read none one⟩

/-- Two columns, and of three records the second is short and the third is not well-formed. -/
def flawed : Bytes := [97, 44, 98, 10, 49, 44, 50, 10, 51, 10, 255, 44, 52, 10]

/-- The short record is reported, unless the column is one that there is not. -/
theorem flawed_refused : table flawed (some "c") = .error (.noGroupColumn "c") ∧
    table flawed none = .error (.record 2 (.width 2 1)) ∧ "b" ∈ ["a", "b"] ∧
    table flawed (some "b") = .error (.record 2 (.width 2 1)) := by
  have read : ((records flawed).headD []).mapM fieldText? = some ["a", "b"] := rfl
  have sound : ∀ r ∈ [[[49], [50]]], Sound ["a", "b"].length r := by
    intro r hr
    rw [List.mem_singleton.mp hr, ← exists_texts_iff]
    exact ⟨["1", "2"], rfl⟩
  have short : Faulty ["a", "b"].length [[51]] (.width 2 1) := .width (by decide)
  have known : "b" ∈ ["a", "b"] := by decide
  have split : (records flawed).tail = [[[49], [50]]] ++ [[51]] :: [[[255], [52]]] := rfl
  obtain ⟨unknown, -⟩ := table_first_fault flawed (some "c")
  obtain ⟨refused, -, same, -⟩ := table_first_fault flawed none
  have plain := (refused _).mpr (.record read nofun split sound short)
  exact ⟨(unknown _).mpr (.column read rfl (by decide)), plain, known,
    (same _ _ read known _).mpr plain⟩

end CorrelationPlot.Csv
