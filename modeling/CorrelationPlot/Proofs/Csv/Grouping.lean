import CorrelationPlot.Proofs.Outcome
import CorrelationPlot.Series.Csv
import Mathlib.Data.List.Induction
import Mathlib.Data.List.Nodup
import Mathlib.Data.List.Perm.Basic

/-!
Records and the series that they are split into. Splitting goes through the records once and loses
none: the values of the column come in the order of their first appearance, and the rows of each
value in the order of the records.
-/
namespace CorrelationPlot.Csv
open Outcome

section Distinct
variable {α : Type} [BEq α] [LawfulBEq α]

theorem eraseDups_snoc_of_mem {as : List α} {a : α} (h : a ∈ as) :
    (as ++ [a]).eraseDups = as.eraseDups := by
  simp [List.eraseDups_append, List.removeAll, h]

theorem eraseDups_snoc_of_not_mem {as : List α} {a : α} (h : a ∉ as) :
    (as ++ [a]).eraseDups = as.eraseDups ++ [a] := by
  simp [List.eraseDups_append, List.removeAll, h, List.eraseDups_cons]

theorem nodup_eraseDups (as : List α) : as.eraseDups.Nodup := by
  induction as using List.reverseRecOn with
  | nil => simp
  | append_singleton as a ih =>
      by_cases h : a ∈ as
      · rwa [eraseDups_snoc_of_mem h]
      · rw [eraseDups_snoc_of_not_mem h, ← List.concat_eq_append]
        exact List.Nodup.concat (mt List.mem_eraseDups.mp h) ih

omit [BEq α] [LawfulBEq α] in
theorem existsUnique_index {as : List α} (distinct : as.Nodup) {a : α} (h : a ∈ as) :
    ∃! i : Nat, as[i]? = some a := by
  obtain ⟨i, hi⟩ := List.mem_iff_getElem?.mp h
  refine ⟨i, hi, fun j hj => ?_⟩
  apply (List.getElem?_inj (List.getElem?_eq_some_iff.mp hj).1 distinct).mp
  exact hj.trans hi.symm

end Distinct

section Groups
variable {α : Type} {key : α → String}

theorem place_fresh {k : String} {a : α} {gs : List (String × List α)}
    (h : k ∉ gs.map Prod.fst) : place k a gs = gs ++ [(k, [a])] := by
  induction gs with
  | nil => rfl
  | cons g gs ih =>
      obtain ⟨other, rest⟩ := not_or.mp (mt List.mem_cons.mpr h)
      rw [place, if_neg (Ne.symm other), ih rest]
      rfl

theorem place_known {k : String} {a : α} {ks : List String} {held : String → List α}
    (distinct : ks.Nodup) (h : k ∈ ks) :
    place k a (ks.map fun k' => (k', held k')) =
      ks.map fun k' => (k', if k' = k then a :: held k' else held k') := by
  induction ks with
  | nil => cases h
  | cons k' ks ih =>
      obtain ⟨fresh, distinct⟩ := List.nodup_cons.mp distinct
      rw [List.map_cons, List.map_cons, place]
      by_cases same : k' = k
      · rw [if_pos same, if_pos same]
        congr 1
        refine List.map_congr_left fun k'' mem => ?_
        rw [if_neg (by rintro rfl; exact fresh (same ▸ mem))]
      · rw [if_neg same, if_neg same, ih distinct (List.mem_of_ne_of_mem (Ne.symm same) h)]

/-- The groups of `as` as they stand while they are filled, the members newest first. -/
def filled (key : α → String) (as : List α) : List (String × List α) :=
  (as.map key).eraseDups.map fun k => (k, (as.filter (key · = k)).reverse)

theorem place_filled (as : List α) (a : α) :
    place (key a) a (filled key as) = filled key (as ++ [a]) := by
  unfold filled
  rw [List.map_append, List.map_singleton]
  by_cases known : key a ∈ as.map key
  · rw [place_known (nodup_eraseDups _) (List.mem_eraseDups.mpr known), eraseDups_snoc_of_mem known]
    refine List.map_congr_left fun k _ => ?_
    by_cases same : key a = k
    · simp [List.filter_append, same]
    · simp [List.filter_append, same, Ne.symm same]
  · -- The key comes up for the first time: all other groups stay as they are.
    have others : ∀ k ∈ (as.map key).eraseDups, key a ≠ k := by
      rintro k mem rfl
      exact known (List.mem_eraseDups.mp mem)
    have none : as.filter (key · = key a) = [] :=
      List.filter_eq_nil_iff.mpr fun b mem same =>
        known (of_decide_eq_true same ▸ List.mem_map_of_mem mem)
    rw [place_fresh (by simpa using known), eraseDups_snoc_of_not_mem known, List.map_append]
    congr 1
    · refine List.map_congr_left fun k mem => ?_
      simp [List.filter_append, others k mem]
    · simp [List.filter_append, none]

theorem foldl_place (as : List α) :
    as.foldl (fun gs a => place (key a) a gs) [] = filled key as := by
  induction as using List.reverseRecOn with
  | nil => rfl
  | append_singleton as a ih =>
      rw [List.foldl_append, ih]
      exact place_filled as a

theorem groups_eq (as : List α) :
    groups key as = (as.map key).eraseDups.map fun k => (k, as.filter (key · = k)) := by
  simp [groups, foldl_place, filled, Function.comp_def]

theorem perm_place (k : String) (a : α) (gs : List (String × List α)) :
    ((place k a gs).flatMap Prod.snd).Perm (a :: gs.flatMap Prod.snd) := by
  induction gs with
  | nil => rfl
  | cons g gs ih =>
      obtain ⟨k', as⟩ := g
      rw [place]
      split
      · rfl
      · exact (ih.append_left as).trans List.perm_middle

theorem foldl_place_perm (as : List α) :
    ((as.foldl (fun gs a => place (key a) a gs) []).flatMap Prod.snd).Perm as := by
  induction as using List.reverseRecOn with
  | nil => rfl
  | append_singleton as a ih =>
      rw [List.foldl_append]
      exact ((perm_place _ a _).trans (ih.cons a)).trans (List.perm_append_singleton a as).symm

theorem groups_perm (as : List α) : ((groups key as).flatMap Prod.snd).Perm as := by
  rw [groups, List.flatMap_map]
  exact (List.Perm.flatMap_left _ fun g _ => List.reverse_perm g.2).trans (foldl_place_perm as)

end Groups

section Records
variable {width : Nat}

theorem texts_eq_ok {r : Record} {ts : List String} :
    texts width r = .ok ts ↔ r.length = width ∧ r.mapM fieldText? = some ts := by
  unfold texts
  split
  · next wrong => simp [wrong]
  · next right =>
    rw [not_not] at right
    split <;> simp_all

theorem length_of_mapM {α β : Type} {f : α → Option β} {as : List α} {bs : List β}
    (h : as.mapM f = some bs) : bs.length = as.length := by
  induction as generalizing bs with
  | nil => simp at h; simp [h]
  | cons a as ih =>
      simp only [List.mapM_cons, Option.pure_def, Option.bind_eq_bind, Option.bind_eq_some_iff,
        Option.some.injEq] at h
      obtain ⟨b, -, rest, hrest, rfl⟩ := h
      rw [List.length_cons, List.length_cons, ih hrest]

theorem allTexts_eq_ok {number : Nat} {rs : List Record} {recs : List (List String)}
    (h : allTexts width number rs = .ok recs) :
    rs.mapM (·.mapM fieldText?) = some recs ∧ ∀ r ∈ recs, r.length = width := by
  induction rs generalizing number recs with
  | nil => cases h; simp
  | cons r rs ih =>
      rw [allTexts] at h
      split at h
      · cases h
      · next t ht =>
        obtain ⟨rest, hrest, rfl⟩ := map_eq_ok.mp h
        obtain ⟨wide, decoded⟩ := texts_eq_ok.mp ht
        obtain ⟨others, wider⟩ := ih hrest
        refine ⟨?_, List.forall_mem_cons.mpr ⟨(length_of_mapM decoded).trans wide, wider⟩⟩
        simp [List.mapM_cons, decoded, others]

theorem headerTexts_eq_ok {rs : List Record} {headers : List String}
    (h : headerTexts rs = .ok headers) : (rs.headD []).mapM fieldText? = some headers := by
  cases rs with
  | nil => cases h; rfl
  | cons r rs =>
      cases decoded : texts r.length r with
      | error f => rw [headerTexts, decoded] at h; cases h
      | ok ts =>
          rw [headerTexts, decoded] at h
          cases h
          exact (texts_eq_ok.mp decoded).2

end Records

section Series
variable {tags : String → Option Tags} {key : List String → String} {recs : List (List String)}

theorem seriesBy_eq : seriesBy tags key recs = (recs.map key).eraseDups.map fun k =>
    .ofRows ((recs.filter (key · = k)).map row) (tags k) := by
  simp [seriesBy, groups_eq, Function.comp_def]

theorem seriesBy_rows_perm : ((seriesBy tags key recs).flatMap (·.rows)).Perm (recs.map row) := by
  have rows : (seriesBy tags key recs).flatMap (·.rows) =
      ((groups key recs).flatMap Prod.snd).map row := by
    simp [seriesBy, List.flatMap_map, List.map_flatMap, Series.ofRows]
  rw [rows]
  exact (groups_perm recs).map row

theorem mem_seriesBy {s : Series} (h : s ∈ seriesBy tags key recs) :
    ∃ k ∈ recs.map key, s = .ofRows ((recs.filter (key · = k)).map row) (tags k) := by
  rw [seriesBy_eq] at h
  obtain ⟨k, mem, rfl⟩ := List.mem_map.mp h
  exact ⟨k, List.mem_eraseDups.mp mem, rfl⟩

/-- A series that holds rows, counts them, and has them all as wide as the headers. -/
structure Regular (width : Nat) (s : Series) : Prop where
  inhabited : s.rows ≠ []
  counted : s.total = some s.rows.length
  wide : ∀ r ∈ s.rows, r.length = width

theorem regular_of_mem_seriesBy {width : Nat} (wide : ∀ r ∈ recs, r.length = width) :
    ∀ s ∈ seriesBy tags key recs, Regular width s := by
  intro s mem
  obtain ⟨k, hk, rfl⟩ := mem_seriesBy mem
  obtain ⟨r, hr, rfl⟩ := List.mem_map.mp hk
  refine ⟨?_, rfl, ?_⟩
  · have held : r ∈ recs.filter (key · = key r) := List.mem_filter.mpr ⟨hr, by simp⟩
    exact List.ne_nil_of_mem (List.mem_map_of_mem held)
  · rintro _ mem
    obtain ⟨r', hr', rfl⟩ := List.mem_map.mp mem
    rw [row, List.length_map, wide r' (List.mem_filter.mp hr').1]

theorem seriesBy_eq_nil : seriesBy tags key recs = [] ↔ recs = [] := by
  rw [seriesBy_eq]
  cases recs with
  | nil => simp
  | cons r recs => simp [List.eraseDups_cons]

theorem seriesBy_const (recs : List (List String)) :
    seriesBy (fun _ => none) (fun _ => "") recs =
      if recs = [] then [] else [⟨some recs.length, recs.map row, none⟩] := by
  rw [seriesBy_eq]
  cases recs with
  | nil => rfl
  | cons r recs => simp [List.eraseDups_cons, Series.ofRows]

/-- Series that split records by the texts that they have in a column. -/
structure SplitBy (name : String) (column : Nat) (recs : List (List String))
    (series : List Series) : Prop where
  /-- The tags are the texts, in the order in which they come up first. -/
  tags : ∃ values : List String, recs.map (·[column]?) = values.map some ∧
    series.map (·.tags) = values.eraseDups.map fun v => some [(name, v)]
  rows : ∀ s ∈ series, ∀ v, s.tags = some [(name, v)] →
    s.rows = (recs.filter (·[column]? = some v)).map row
  /-- Exactly one series is the one of a record. -/
  once : ∀ r ∈ recs, ∃ v, r[column]? = some v ∧
    ∃! i : Nat, series[i]?.map (·.tags) = some (some [(name, v)])

theorem splitBy_seriesBy (name : String) {column : Nat} (wide : ∀ r ∈ recs, column < r.length) :
    SplitBy name column recs
      (seriesBy (fun v => some [(name, v)]) (fun ts => ts[column]?.getD "") recs) := by
  have text : ∀ r ∈ recs, r[column]? = some (r[column]?.getD "") := by
    intro r hr
    rw [List.getElem?_eq_getElem (wide r hr)]
    rfl
  have tags : (seriesBy (fun v => some [(name, v)]) (fun ts => ts[column]?.getD "") recs).map
      (·.tags) = (recs.map fun ts => ts[column]?.getD "").eraseDups.map
        fun v => some [(name, v)] := by
    rw [seriesBy_eq, List.map_map]
    rfl
  refine ⟨⟨_, ?_, tags⟩, ?_, ?_⟩
  · rw [List.map_map]
    exact List.map_congr_left text
  · intro s mem v hv
    obtain ⟨k, -, rfl⟩ := mem_seriesBy mem
    obtain rfl : k = v := by simpa [Series.ofRows] using hv
    refine congrArg (List.map row) (List.filter_congr fun r hr => ?_)
    rw [text r hr]
    simp
  · intro r hr
    have known := List.mem_eraseDups.mpr
      (List.mem_map_of_mem hr (f := fun ts : List String => ts[column]?.getD ""))
    obtain ⟨i, hi, unique⟩ := existsUnique_index (nodup_eraseDups _) known
    simp only [← List.getElem?_map, tags]
    refine ⟨_, text r hr, i, ?_, fun j hj => unique j ?_⟩
    · simp only [List.getElem?_map, hi, Option.map_some]
    · simpa only [List.getElem?_map, Option.map_eq_some_iff, Option.some.injEq, List.cons.injEq,
        Prod.mk.injEq, true_and, and_true, exists_eq_right] using hj

end Series

/-- Records are split by a key, whether or not a column is named. -/
theorem seriesBy_of_grouping {headers : List String} {groupBy : Option String}
    {split : List (List String) → List Series} (h : grouping headers groupBy = .ok split) :
    ∃ tags key, split = seriesBy tags key := by
  cases groupBy with
  | none => cases h; exact ⟨_, _, rfl⟩
  | some name =>
      rw [grouping] at h
      split at h <;> cases h
      exact ⟨_, _, rfl⟩

/-- The texts of a document: its headers, and records that are as wide. -/
structure Decoded (bytes : Bytes) (headers : List String) (recs : List (List String)) : Prop where
  header : ((records bytes).headD []).mapM fieldText? = some headers
  body : (records bytes).tail.mapM (·.mapM fieldText?) = some recs
  wide : ∀ r ∈ recs, r.length = headers.length

section Tables
variable {bytes : Bytes} {groupBy : Option String} {t : Table}

theorem table_eq_ok (h : table bytes groupBy = .ok t) :
    ∃ recs tags key, Decoded bytes t.headers recs ∧
      t = .ofSeries t.headers (seriesBy tags key recs) ∧
      grouping t.headers groupBy = .ok (seriesBy tags key) := by
  obtain ⟨headers, hheaders, h⟩ := bind_eq_ok.mp h
  obtain ⟨split, hsplit, h⟩ := bind_eq_ok.mp h
  obtain ⟨recs, hrecs, h⟩ := bind_eq_ok.mp h
  obtain ⟨tags, key, rfl⟩ := seriesBy_of_grouping hsplit
  obtain ⟨decoded, wide⟩ := allTexts_eq_ok hrecs
  cases h
  exact ⟨recs, tags, key, ⟨headerTexts_eq_ok hheaders, decoded, wide⟩, rfl, hsplit⟩

theorem regular_of_table (h : table bytes groupBy = .ok t) :
    ∀ s ∈ t.series, Regular t.headers.length s := by
  obtain ⟨recs, tags, key, decoded, made, -⟩ := table_eq_ok h
  rw [made]
  exact regular_of_mem_seriesBy decoded.wide

theorem series_eq_nil_of_table (h : table bytes groupBy = .ok t) :
    t.series = [] ↔ (records bytes).tail = [] := by
  obtain ⟨recs, tags, key, decoded, made, -⟩ := table_eq_ok h
  have count := length_of_mapM decoded.body
  rw [made, ← List.length_eq_zero_iff (l := (records bytes).tail), ← count,
    List.length_eq_zero_iff]
  exact seriesBy_eq_nil

/-- A table splits all its records, in order. -/
theorem table_splits_records (h : table bytes groupBy = .ok t) :
    ∃ recs, Decoded bytes t.headers recs ∧ t.total = some recs.length ∧
      (∀ s ∈ t.series, Regular t.headers.length s) ∧
      (t.series.flatMap (·.rows)).Perm (recs.map row) ∧
      match groupBy with
      | none => t.series = if recs = [] then [] else [⟨some recs.length, recs.map row, none⟩]
      | some name =>
        ∃ column, t.headers.idxOf? name = some column ∧ SplitBy name column recs t.series := by
  obtain ⟨recs, tags, key, decoded, made, named⟩ := table_eq_ok h
  have series : t.series = seriesBy tags key recs := congrArg Table.series made
  have perm : (t.series.flatMap (·.rows)).Perm (recs.map row) := series ▸ seriesBy_rows_perm
  have total : t.total = some recs.length := by
    rw [congrArg Table.total made]
    exact congrArg some (seriesBy_rows_perm.length_eq.trans (List.length_map row))
  refine ⟨recs, decoded, total, regular_of_table h, perm, ?_⟩
  cases groupBy with
  | none =>
      rw [series, ← seriesBy_const]
      exact congrFun (Except.ok.inj named).symm recs
  | some name =>
      rw [grouping] at named
      split at named
      · next column found =>
        rw [series, ← Except.ok.inj named]
        have reached : column < t.headers.length :=
          (List.findIdx?_eq_some_iff_findIdx_eq.mp found).1
        exact ⟨column, found, splitBy_seriesBy name fun r hr => (decoded.wide r hr).symm ▸ reached⟩
      · cases named

end Tables

/-- Four records, of which the first and the last have one key. -/
def sites : Bytes :=
  [115, 105, 116, 101, 44, 110, 10, 97, 44, 49, 10, 44, 50, 10, 65, 44, 120, 10, 97, 44, 51, 10]

theorem sites_split : ∃ t, table sites (some "site") = .ok t ∧
    t.series.map (·.tags) = [some [("site", "a")], some [("site", "")], some [("site", "A")]] ∧
    t.total = some 4 ∧
    ∀ s ∈ t.series, s.tags = some [("site", "a")] →
      s.rows = [[.text "a", .ofInt 1], [.text "a", .ofInt 3]] := by
  obtain ⟨t, ht⟩ : ∃ t, table sites (some "site") = .ok t := ⟨_, rfl⟩
  obtain ⟨recs, decoded, total, -, -, column, found, split⟩ := table_splits_records ht
  obtain rfl : [["a", "1"], ["", "2"], ["A", "x"], ["a", "3"]] = recs :=
    Option.some.inj decoded.body
  rw [← show ["site", "n"] = t.headers from Option.some.inj decoded.header] at found
  obtain rfl : 0 = column := Option.some.inj found
  obtain ⟨values, texts, tags⟩ := split.tags
  obtain rfl : ["a", "", "A", "a"] = values :=
    List.map_injective_iff.mpr (fun _ _ => Option.some.inj) texts
  refine ⟨t, ht, tags, total, fun s mem hs => ?_⟩
  rw [split.rows s mem "a" hs]
  rfl

end CorrelationPlot.Csv
