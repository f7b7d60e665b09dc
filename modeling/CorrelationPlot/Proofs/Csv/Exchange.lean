import CorrelationPlot.Cli.Run
import CorrelationPlot.Proofs.Csv.Grouping
import CorrelationPlot.Proofs.Trace

/-!
Tables that were read from separated values, written as JSON and read again. The objects of the JSON
are sorted by key before tables are read from them, which would move tags; but a series has one tag
at most, and a number that a field denotes is finite.
-/
namespace CorrelationPlot
open Json Outcome

section
variable {A : Arrangement}

theorem Tags.refusesNull_codec : Tags.codec.RefusesNull := by
  intro depth tags read
  cases depth <;> cases read

/-- A single tag cannot be moved. -/
theorem Tags.restores {tags : Tags} (single : tags.length ≤ 1) : Tags.codec.Restores A tags := by
  intro depth deep
  obtain ⟨below, rfl⟩ := Nat.exists_eq_add_one.mpr (Nat.zero_lt_of_lt deep)
  cases tags with
  | nil =>
      obtain ⟨ms, arranged, moved⟩ := A.object [] List.nodup_nil
      obtain rfl := moved.eq_nil
      simp only [codec, List.map_nil, arranged]
      rfl
  | cons t tags =>
      obtain rfl : tags = [] := List.length_eq_zero_iff.mp (by simpa using single)
      obtain ⟨ms, arranged, moved⟩ := A.object [(t.1, .string t.2)] (List.nodup_singleton _)
      obtain rfl := List.perm_singleton.mp moved
      simp only [codec, List.map_cons, List.map_nil, arranged, A.scalar (.string t.2) rfl]
      rfl

/-- Counts of 64 bits, and one tag at most. -/
structure Series.Storable (s : Series) : Prop where
  total : ∀ n, s.total = some n → n < UInt64.size
  tags : ∀ tags, s.tags = some tags → tags.length ≤ 1

theorem Series.restores {s : Series} (h : s.Storable) : Series.codec.Restores A s :=
  Record.restores_codec (by decide)
    ⟨Codec.restores_option (Codec.refusesNull_natBelow _) fun n hn =>
        Codec.restores_count (h.total n hn),
      Codec.restores_list fun r _ => Cell.restores_list r,
      Codec.restores_option Tags.refusesNull_codec fun tags ht => Tags.restores (h.tags tags ht),
      trivial⟩ rfl

structure Table.Storable (t : Table) : Prop where
  series : ∀ s ∈ t.series, s.Storable
  total : ∀ n, t.total = some n → n < UInt64.size

theorem Table.restores {t : Table} (h : t.Storable) : Table.codec.Restores A t :=
  Record.restores_codec (by decide)
    ⟨Codec.restores_list fun _ _ => Codec.restores_string _,
      Codec.restores_list fun s hs => Series.restores (h.series s hs),
      Codec.restores_option (Codec.refusesNull_natBelow _) fun n hn =>
        Codec.restores_count (h.total n hn),
      trivial⟩ rfl

end

namespace Table

theorem nesting_codec (t : Table) : (codec.encode t).nesting ≤ maxDepth := by
  have tags (n : Nat) : Tags.codec.Within (n + 1) := by
    intro tags
    apply Nat.succ_le_succ
    apply nestingMembers_le
    intro m hm
    obtain ⟨t, -, rfl⟩ := List.mem_map.mp hm
    exact Nat.zero_le n
  have series : Series.codec.Within 3 := Codec.within_record
    (by simp [Field.withDefault, (Codec.within_count _).option, (Cell.within_list _).list,
      (tags _).option]) _ _
  have table : codec.Within 5 := Codec.within_record
    (by simp [Field.withDefault, (Codec.within_string _).list, series.list,
      (Codec.within_count _).option]) _ _
  exact (table t).trans (by decide)

theorem listOfJson_sorted {t : Table} (h : t.Storable) :
    listOfJson (codec.encode t).sorted = .ok [t] := by
  have back : codec.ofJson? (codec.encode t).sorted = some t :=
    Codec.ofJson?_arranged t.nesting_codec (restores (A := .byName) h)
  obtain ⟨ms, hms⟩ : ∃ ms, (codec.encode t).sorted = .object ms := ⟨_, rfl⟩
  rw [hms] at back ⊢
  rw [listOfJson, back]

theorem listOfText_text {t : Table} (h : t.Storable) :
    listOfText (codec.text t) = .ok [t] ∧ listOfText (codec.indented t) = .ok [t] := by
  have table := listOfJson_sorted h
  constructor
  · rw [listOfText, Codec.text, parse_compactText t.nesting_codec]
    exact table
  · rw [listOfText, Codec.indented, parse_indentedText t.nesting_codec]
    exact table

end Table

namespace Csv
open Cli

namespace Scan

/-- How many records have begun. -/
def begun (s : Scan) : Nat := s.records.length + if s.place = .recordStart then 0 else 1

theorem begun_of_records {s s' : Scan} (h : s'.records = s.records) : s'.begun ≤ s.begun + 1 := by
  rw [begun, begun, h]
  split <;> omega

theorem begun_endRecord (s : Scan) : s.endRecord.begun ≤ s.begun + 1 := by
  simp only [endRecord, begun, List.length_cons, if_true]
  omega

theorem begun_plainByte (s : Scan) (b : UInt8) : (s.plainByte b).begun ≤ s.begun + 1 := by
  rw [plainByte]
  split
  · exact begun_of_records rfl
  · split
    · exact begun_endRecord s
    · exact begun_of_records rfl

theorem begun_step (s : Scan) (b : UInt8) : (s.step b).begun ≤ s.begun + 1 := by
  cases h : s.place with
  | recordStart =>
      simp only [step, h]
      split
      · exact Nat.le_succ _
      · split
        · exact begun_of_records rfl
        · exact begun_plainByte s b
  | fieldStart =>
      simp only [step, h]
      split
      · exact begun_of_records rfl
      · exact begun_plainByte s b
  | plain =>
      simp only [step, h]
      exact begun_plainByte s b
  | quoted =>
      simp only [step, h]
      split <;> exact begun_of_records rfl
  | quoteSeen =>
      simp only [step, h]
      split
      · exact begun_of_records rfl
      · exact begun_plainByte s b

theorem begun_foldl (s : Scan) (bytes : Bytes) :
    (bytes.foldl step s).begun ≤ s.begun + bytes.length := by
  induction bytes generalizing s with
  | nil => exact le_rfl
  | cons b bytes ih =>
      have first := begun_step s b
      have rest := ih (s.step b)
      rw [List.length_cons, List.foldl_cons]
      omega

theorem length_finish (s : Scan) : s.finish.length = s.begun := by
  rw [finish, begun]
  split
  · next start => rw [List.length_reverse, if_pos start, Nat.add_zero]
  · next begun => rw [List.length_reverse, if_neg begun, endRecord, List.length_cons]

end Scan

/-- Every record takes a byte. -/
theorem length_records_le (bytes : Bytes) : (records bytes).length ≤ bytes.length := by
  have scanned := Scan.begun_foldl Scan.start (dropMark bytes)
  have dropped : (dropMark bytes).length ≤ bytes.length := by
    unfold dropMark
    split
    · simp only [List.length_cons]
      omega
    · exact le_rfl
  rw [records, Scan.length_finish]
  exact (scanned.trans_eq (Nat.zero_add _)).trans dropped

/-- A series has the tag of its group, or none. -/
theorem single_tag_of_grouping {headers : List String} {groupBy : Option String}
    {split : List (List String) → List Series} (h : grouping headers groupBy = .ok split)
    (recs : List (List String)) : ∀ s ∈ split recs, ∀ ts, s.tags = some ts → ts.length ≤ 1 := by
  intro s hs ts hts
  cases groupBy with
  | none =>
      cases h
      obtain ⟨k, -, rfl⟩ := mem_seriesBy hs
      cases hts
  | some name =>
      rw [grouping] at h
      split at h
      · cases h
        obtain ⟨k, -, rfl⟩ := mem_seriesBy hs
        cases hts
        exact le_rfl
      · cases h

theorem storable_of_table {bytes : Bytes} {groupBy : Option String} {t : Table}
    (h : table bytes groupBy = .ok t) (size : bytes.length < UInt64.size) : t.Storable := by
  obtain ⟨recs, tags, key, decoded, made, named⟩ := table_eq_ok h
  have series : t.series = seriesBy tags key recs := congrArg Table.series made
  have few : recs.length < UInt64.size := by
    have body := length_of_mapM decoded.body
    have all := length_records_le bytes
    rw [List.length_tail] at body
    omega
  constructor
  · intro s hs
    rw [series] at hs
    refine ⟨fun n hn => ?_, single_tag_of_grouping named recs s hs⟩
    obtain ⟨k, -, rfl⟩ := mem_seriesBy hs
    obtain rfl := Option.some.inj hn
    rw [List.length_map]
    exact (List.length_filter_le _ _).trans_lt few
  · intro n hn
    rw [congrArg Table.total made] at hn
    obtain rfl := Option.some.inj hn
    rwa [seriesBy_rows_perm.length_eq, List.length_map]

/-- A table that was read from separated values is read from its JSON text, compact or indented, and
runs on either of the two do the same. The bytes are counted with 64 bits, as those of a file are.
-/
theorem json_restores_table {bytes : Bytes} {groupBy : Option String} {t : Table}
    (h : table bytes groupBy = .ok t) (size : bytes.length < UInt64.size) :
    Table.listOfText (Table.codec.text t) = .ok [t] ∧
      Table.listOfText (Table.codec.indented t) = .ok [t] ∧
      ∀ (o : Options) (settings : Contents) (data : ByteArray), data.toList = bytes →
        run { o with format := .json } ⟨.bytes (Table.codec.text t).toUTF8, settings⟩ =
          run { o with format := .csv, groupBy } ⟨.bytes data, settings⟩ := by
  obtain ⟨compact, indented⟩ := Table.listOfText_text (storable_of_table h size)
  refine ⟨compact, indented, fun o settings data same => ?_⟩
  have wellFormed : String.fromUTF8? (Table.codec.text t).toUTF8 = some (Table.codec.text t) :=
    dif_pos (String.isValidUTF8 _)
  have fromText : readTables { o with format := .json }
      ⟨.bytes (Table.codec.text t).toUTF8, settings⟩ = .ok [t] := by
    simp only [readTables, wellFormed, compact]
    rfl
  have fromValues : readTables { o with format := .csv, groupBy } ⟨.bytes data, settings⟩ =
      .ok [t] := by
    simp only [readTables, same, h]
    rfl
  rw [run, run, fromText, fromValues]
  rfl

/-- The table of the sites, with one series for each. -/
def sitesTable : Table :=
  ⟨["site", "n"],
    [⟨some 2, [[.text "a", .ofInt 1], [.text "a", .ofInt 3]], some [("site", "a")]⟩,
      ⟨some 1, [[.null, .ofInt 2]], some [("site", "")]⟩,
      ⟨some 1, [[.text "A", .text "x"]], some [("site", "A")]⟩],
    some 4⟩

/-- The options of a run that plots the sites by their numbers. -/
def sitesOptions (format : DataFormat) (groupBy : Option String) : Options :=
  ⟨.script "correlation(x: n, y: n)", none, format, groupBy, false, none, .png⟩

theorem sites_restored : table sites (some "site") = .ok sitesTable ∧
    sites.length < UInt64.size ∧
    Table.listOfText (Table.codec.text sitesTable) = .ok [sitesTable] ∧
    Table.listOfText (Table.codec.indented sitesTable) = .ok [sitesTable] ∧
    (ByteArray.mk sites.toArray).toList = sites ∧
    run (sitesOptions .json none) ⟨.bytes (Table.codec.text sitesTable).toUTF8, .missing⟩ =
      run (sitesOptions .csv (some "site")) ⟨.bytes ⟨sites.toArray⟩, .missing⟩ := by
  have read : table sites (some "site") = .ok sitesTable := by
    rfl
  have size : sites.length < UInt64.size := by decide
  have data : (ByteArray.mk sites.toArray).toList = sites := by cbv
  obtain ⟨compact, indented, runs⟩ := json_restores_table read size
  exact ⟨read, size, compact, indented, data, runs (sitesOptions .json none) .missing _ data⟩

end Csv
end CorrelationPlot
