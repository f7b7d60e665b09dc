import CorrelationPlot.Proofs.Json.Record
import CorrelationPlot.Proofs.Prepared
import CorrelationPlot.Series.Table
import Mathlib.Data.List.Permutation
import Mathlib.Data.Set.List

/-!
The order of tags. The tags of a series are read in the order of their names and not in the order in
which a document gives them, so a series has the name that the least of its tags says.
-/
namespace CorrelationPlot

namespace Json

/-- The tables of a document as they stand in it. -/
def writtenTables : Json → List Json
  | .array ts => ts
  | j => [j]

/-- The series of a table as they stand in it. -/
def writtenSeries (t : Json) : List Json :=
  match t.field? 1 "allDataSeries" with
  | some (.array ss) => ss
  | _ => []

/-- The tags of a series as they stand in it. -/
def writtenTags (s : Json) : List (String × Json) :=
  match s.field? 2 "tags" with
  | some (.object ms) => ms
  | _ => []

theorem field?_sorted (j : Json) (place : Nat) (name : String) :
    j.sorted.field? place name = (j.field? place name).map sorted := by
  cases j with
  | array items => simp only [sorted, field?, sortedItems_eq_map, List.getElem?_map]
  | object ms => simp only [sorted, field?, member?_sortMembers, member?_sortedMembers]
  | null | bool b | number n | string s => rfl

theorem sorted_eq_string {j : Json} {s : String} (h : j.sorted = .string s) : j = .string s := by
  cases j <;> simp_all [sorted]

theorem decodeItems_list {α : Type} {c : Codec α} {depth : Nat} {items : List Json} {as : List α}
    (h : Codec.decodeItems c depth (Written.ofItems items) none = .ok as) {i : Nat} {j : Json}
    (hj : items[i]? = some j) :
    ∃ a, as[i]? = some a ∧ c.decode depth (Written.ofJson j) = .ok a := by
  induction items generalizing as i with
  | nil => simp at hj
  | cons first items ih =>
      obtain ⟨a, ha, h⟩ := Outcome.bind_eq_ok.mp h
      obtain ⟨rest, hrest, h⟩ := Outcome.bind_eq_ok.mp h
      cases h
      cases i with
      | zero =>
          cases hj
          exact ⟨a, rfl, ha⟩
      | succ i => exact ih hrest hj

end Json

namespace Tags

/-- Tags with their values as texts. -/
def toMembers (tags : Tags) : List (String × Json) := tags.map fun t => (t.1, .string t.2)

theorem set_fresh {name value : String} {tags : Tags} (h : ∀ t ∈ tags, t.1 ≠ name) :
    set name value tags = tags ++ [(name, value)] := by
  induction tags with
  | nil => rfl
  | cons t tags ih =>
      rw [set, if_neg (h t List.mem_cons_self), ih fun u hu => h u (List.mem_cons_of_mem _ hu)]
      rfl

/-- Members with ascending keys become tags one by one. -/
theorem decodeMembers_eq_ok {depth : Nat} {ms : List (String × Json)} {before tags : Tags}
    (h : decodeMembers depth none (Json.Written.ofMembers ms) before = .ok tags)
    (ascending : Json.Ascending (before.toMembers ++ ms)) :
    ∃ more : Tags, ms = more.toMembers ∧ tags = before ++ more := by
  induction ms generalizing before with
  | nil =>
      cases h
      exact ⟨[], rfl, (List.append_nil _).symm⟩
  | cons m ms ih =>
      obtain ⟨k, j⟩ := m
      obtain ⟨_, hkey, h⟩ := Outcome.bind_eq_ok.mp h
      cases hkey
      obtain ⟨value, hvalue, hrest⟩ := Outcome.bind_eq_ok.mp h
      have text : j = .string value := by
        cases j <;> cases hvalue
        rfl
      have fresh : ∀ t ∈ before, t.1 ≠ k := fun t ht =>
        ne_of_lt ((List.pairwise_append.mp ascending).2.2 _ (List.mem_map_of_mem ht) _
          List.mem_cons_self)
      rw [set_fresh fresh] at hrest
      obtain ⟨more, rfl, rfl⟩ := ih hrest (by simpa [toMembers, text] using ascending)
      exact ⟨(k, value) :: more, by simp [toMembers, text], by simp⟩

theorem perm_of_toMembers {tags tags' : Tags} (h : tags.toMembers.Perm tags'.toMembers) :
    tags.Perm tags' := by
  refine (List.map_perm_map_iff ?_).mp h
  intro t t' same
  simpa [Prod.ext_iff] using same

theorem ascending_toMembers {tags : Tags} : Json.Ascending tags.toMembers ↔ Json.Ascending tags :=
  List.pairwise_map

/-- Only texts are sorted into texts. -/
theorem toMembers_of_sorted {ms : List (String × Json)} {tags : Tags}
    (h : (Json.sortedMembers ms).Perm tags.toMembers) :
    ∃ written : Tags, ms = written.toMembers ∧ Json.sortedMembers ms = ms := by
  have texts : ∀ m ∈ ms, m ∈ Set.range fun t : String × String => (t.1, Json.string t.2) := by
    intro ⟨k, j⟩ hm
    have hm' : (k, j.sorted) ∈ Json.sortedMembers ms := by
      rw [Json.sortedMembers_eq_map]
      exact List.mem_map_of_mem hm
    obtain ⟨t, -, ht⟩ := List.mem_map.mp (h.mem_iff.mp hm')
    rw [Prod.mk.injEq] at ht
    exact ⟨(k, t.2), by rw [Json.sorted_eq_string ht.2.symm]⟩
  have range := Set.range_list_map fun t : String × String => (t.1, Json.string t.2)
  obtain ⟨written, rfl⟩ : ms ∈ Set.range (List.map _) := range.symm.subset texts
  refine ⟨written, rfl, ?_⟩
  rw [Json.sortedMembers_eq_map, List.map_map]
  rfl

end Tags

namespace Series

/-- The tags of a series that was read: those that are written, in the order of their names. -/
theorem tags_of_decode {depth : Nat} {j : Json} {s : Series}
    (h : codec.decode depth (Json.Written.ofJson j.sorted) = .ok s) (tagged : j.writtenTags ≠ [])
    (distinct : (j.writtenTags.map Prod.fst).Nodup) :
    ∃ written tags : Tags, j.writtenTags = written.toMembers ∧ s.tags = some tags ∧
      tags.Perm written ∧ Json.Ascending tags := by
  obtain ⟨vs, hvs, rfl⟩ := Outcome.map_eq_ok.mp h
  obtain ⟨total, rows, loaded, rest⟩ := vs
  obtain ⟨below, -, -, -, -, -, found, -⟩ := Json.Record.found_of_decode (by decide) hvs
  obtain ⟨ms, hms⟩ : ∃ ms, j.field? 2 "tags" = some (.object ms) := by
    rw [Json.writtenTags] at tagged
    split at tagged
    · next ms hms => exact ⟨ms, hms⟩
    · exact absurd rfl tagged
  have stand : j.writtenTags = ms := by rw [Json.writtenTags, hms]
  rw [stand] at distinct ⊢
  have hsorted : (Json.Written.ofJson j.sorted).field? 2 "tags" =
      some (.ofJson (Json.object ms).sorted) := by
    rw [Json.Written.field?_ofJson, Json.field?_sorted, hms]
    rfl
  obtain ⟨tags, htags, rfl⟩ := Outcome.map_eq_ok.mp (found _ hsorted)
  cases below with
  | zero => cases htags
  | succ below =>
      have ascending := Json.ascending_sortMembers (Json.sortedMembers ms)
      obtain ⟨_, same, rfl⟩ := Tags.decodeMembers_eq_ok htags ascending
      have keys : ((Json.sortedMembers ms).map Prod.fst).Nodup := by
        rwa [Json.sortedMembers_eq_map, List.map_map]
      have moved := Json.perm_sortMembers keys
      rw [same] at moved ascending
      obtain ⟨written, rfl, texts⟩ := Tags.toMembers_of_sorted moved.symm
      rw [texts] at moved
      exact ⟨written, _, rfl, rfl, Tags.perm_of_toMembers moved,
        Tags.ascending_toMembers.mp ascending⟩

/-- Of tags in the order of their names the first is the least. -/
theorem nameOr_of_ascending {s : Series} {written tags : Tags} (htags : s.tags = some tags)
    (moved : tags.Perm written) (ascending : Json.Ascending tags) (tagged : written ≠ []) :
    ∃ name value, (name, value) ∈ written ∧ (∀ t ∈ written, name ≤ t.1) ∧
      ∀ default, s.nameOr default = value := by
  cases tags with
  | nil => exact absurd moved.symm.eq_nil tagged
  | cons t tags =>
      refine ⟨t.1, t.2, moved.subset List.mem_cons_self, fun u hu => ?_, fun default => ?_⟩
      · rcases List.mem_cons.mp (moved.mem_iff.mpr hu) with rfl | hu
        · exact le_rfl
        · exact le_of_lt ((List.pairwise_cons.mp ascending).1 u hu)
      · rw [nameOr, htags]

end Series

namespace Table

theorem series_of_decode {depth : Nat} {j : Json} {t : Table}
    (h : codec.decode depth (Json.Written.ofJson j.sorted) = .ok t) {b : Nat} {s' : Json}
    (hs : j.writtenSeries[b]? = some s') :
    ∃ s below, t.series[b]? = some s ∧
      Series.codec.decode below (Json.Written.ofJson s'.sorted) = .ok s := by
  obtain ⟨vs, hvs, rfl⟩ := Outcome.map_eq_ok.mp h
  obtain ⟨headers, series, total, rest⟩ := vs
  obtain ⟨below, -, -, -, found, -⟩ := Json.Record.found_of_decode (by decide) hvs
  rw [Json.writtenSeries] at hs
  split at hs
  · next items hitems =>
    have hsorted : (Json.Written.ofJson j.sorted).field? 1 "allDataSeries" =
        some (.ofJson (Json.array items).sorted) := by
      rw [Json.Written.field?_ofJson, Json.field?_sorted, hitems]
      rfl
    have list := found _ hsorted
    cases below with
    | zero => cases list
    | succ below =>
        have item : (Json.sortedItems items)[b]? = some s'.sorted := by
          rw [Json.sortedItems_eq_map, List.getElem?_map, hs]
          rfl
        obtain ⟨s, hs, hdecode⟩ := Json.decodeItems_list list item
        exact ⟨s, below, hs, hdecode⟩
  · simp at hs

theorem tables_of_text {text : String} {tables : List Table} (h : listOfText text = .ok tables) :
    ∃ j, Json.parse text = .ok j ∧ ∀ (a : Nat) (t' : Json), j.writtenTables[a]? = some t' →
      ∃ t depth, tables[a]? = some t ∧
        codec.decode depth (Json.Written.ofJson t'.sorted) = .ok t := by
  rw [listOfText] at h
  split at h
  · next j hj =>
    refine ⟨j, hj, fun a t' ht => ?_⟩
    cases j with
    | array items =>
        simp only [Json.sorted, listOfJson] at h
        split at h
        · next read =>
          cases h
          have item : (Json.sortedItems items)[a]? = some t'.sorted := by
            rw [Json.sortedItems_eq_map, List.getElem?_map, show items[a]? = some t' from ht]
            rfl
          obtain ⟨t, ht, hdecode⟩ := Json.decodeItems_list (Json.Codec.ofJson?_eq_some read) item
          exact ⟨t, _, ht, hdecode⟩
        · cases h
    | object ms =>
        simp only [Json.sorted, listOfJson] at h
        split at h
        · next t read =>
          cases h
          cases a with
          | zero =>
              cases ht
              exact ⟨t, _, rfl, Json.Codec.ofJson?_eq_some read⟩
          | succ a => simp [Json.writtenTables] at ht
        · cases h
    | null | bool b | number n | string s => cases h
  · cases h

/-- Tags are read in the order of their names. They are in the order of the document exactly when
the document gives them in that order, and always the least of them names the series and its
traces. -/
theorem tags_by_name {text : String} {tables : List Table} (h : listOfText text = .ok tables) :
    ∃ j, Json.parse text = .ok j ∧ ∀ (a b : Nat) (t' s' : Json),
      j.writtenTables[a]? = some t' → t'.writtenSeries[b]? = some s' → s'.writtenTags ≠ [] →
      (s'.writtenTags.map Prod.fst).Nodup →
      ∃ t s, ∃ written tags : Tags, tables[a]? = some t ∧ t.series[b]? = some s ∧
        s'.writtenTags = written.toMembers ∧ s.tags = some tags ∧
        tags.Perm written ∧ Json.Ascending tags ∧ (tags = written ↔ Json.Ascending written) ∧
        ∃ name value, (name, value) ∈ written ∧ (∀ u ∈ written, name ≤ u.1) ∧
          (∀ default, s.nameOr default = value) ∧
          ∀ others view fixed p, Prepared.ofTables (t :: others) view fixed = .ok p →
            (∃ q, p.placements[b]? = some q ∧ q.name = value) ∧
            ∀ k < view.display.tracesEach,
              ∃ tr, p.traces[view.display.tracesEach * b + k]? = some tr ∧ tr.name = value := by
  obtain ⟨j, hj, read⟩ := tables_of_text h
  refine ⟨j, hj, fun a b t' s' ht hs tagged distinct => ?_⟩
  obtain ⟨t, depth, ht, hdecode⟩ := read a t' ht
  obtain ⟨s, below, hs, hdecode⟩ := series_of_decode hdecode hs
  obtain ⟨written, tags, stand, htags, moved, ascending⟩ :=
    Series.tags_of_decode hdecode tagged distinct
  have nonempty : written ≠ [] := by
    rintro rfl
    exact tagged stand
  obtain ⟨name, value, least, below, named⟩ :=
    Series.nameOr_of_ascending htags moved ascending nonempty
  refine ⟨t, s, written, tags, ht, hs, stand, htags, moved, ascending, ⟨?_, ?_⟩, name, value, least,
    below, named, ?_⟩
  · rintro rfl
    exact ascending
  · intro inOrder
    exact moved.eq_of_pairwise (fun _ _ _ _ lt gt => absurd gt (lt_asymm lt)) ascending inOrder
  · intro others view fixed p hp
    obtain ⟨q, hq, label⟩ := Prepared.placement_of_series hp hs
    rw [named] at label
    refine ⟨⟨q, hq, label⟩, fun k hk => ?_⟩
    obtain ⟨tr, htr, same⟩ := (Prepared.laid_ofTables hp).name hq hk
    exact ⟨tr, htr, same.trans label⟩

/-- A document that gives the site of a series before its pump. -/
def siteFirst : String :=
  "\x7b\"allDataSeries\":[\x7b\"tags\":\x7b\"site\":\"north\",\"pump\":\"p1\"\x7d\x7d]\x7d"

def siteFirstSeries : Json :=
  .object [("tags", .object [("site", .string "north"), ("pump", .string "p1")])]

def siteFirstTable : Table := ⟨[], [⟨none, [], some [("pump", "p1"), ("site", "north")]⟩], none⟩

theorem parse_siteFirst :
    Json.parse siteFirst = .ok (.object [("allDataSeries", .array [siteFirstSeries])]) := by
  cbv

theorem listOfText_siteFirst : listOfText siteFirst = .ok [siteFirstTable] := by
  cbv

theorem siteFirst_tags : listOfText siteFirst = .ok [siteFirstTable] ∧
    ∃ s tags, siteFirstTable.series[0]? = some s ∧ s.tags = some tags ∧ Json.Ascending tags ∧
      ∃ name value, (name, Json.string value) ∈ siteFirstSeries.writtenTags ∧
        (∀ u ∈ siteFirstSeries.writtenTags, name ≤ u.1) ∧ s.nameOr "density" = value := by
  refine ⟨listOfText_siteFirst, ?_⟩
  obtain ⟨j, hj, read⟩ := tags_by_name listOfText_siteFirst
  cases parse_siteFirst.symm.trans hj
  obtain ⟨t, s, written, tags, ht, hs, stand, htags, -, ascending, -, name, value, least, below,
    named, -⟩ := read 0 0 _ siteFirstSeries rfl rfl (by decide) (by decide)
  cases ht
  refine ⟨s, tags, hs, htags, ascending, name, value, ?_, ?_, named "density"⟩
  · rw [stand]
    exact List.mem_map_of_mem least
  · intro u hu
    rw [stand] at hu
    obtain ⟨v, hv, rfl⟩ := List.mem_map.mp hu
    exact below v hv

/-- The first tag of the document is not the first that was read, nor the name of the series. -/
theorem siteFirst_not_named_by_site :
    Json.parse siteFirst = .ok (.object [("allDataSeries", .array [siteFirstSeries])]) ∧
      siteFirstSeries.writtenTags = Tags.toMembers [("site", "north"), ("pump", "p1")] ∧
      listOfText siteFirst = .ok [siteFirstTable] ∧
      siteFirstTable.series.map Series.tags ≠ [some [("site", "north"), ("pump", "p1")]] ∧
      siteFirstTable.series.map (Series.nameOr · "density") ≠ ["north"] :=
  ⟨parse_siteFirst, rfl, listOfText_siteFirst, by decide, by decide⟩

end Table
end CorrelationPlot
