import CorrelationPlot.Proofs.Inferred

/-!
One document read twice, with and without a column that splits it. The tables hold the same rows and
offer the same fields, so a script means the same settings for both, and both plots mark the same
points; the split one only deals them out to several panels.
-/
namespace CorrelationPlot
open Outcome

/-- The pairs of cells at which a trace has markers. -/
def Trace.marked : Trace → List (Cell × Cell)
  | .scatter t => t.x.zip t.y
  | .contour _ => []

def Prepared.marked (p : Prepared) : List (Cell × Cell) := p.traces.flatMap Trace.marked

/-- The cells of a row in the two columns. -/
def Columns.pair (cs : Columns) (row : Row) : Option (Cell × Cell) :=
  row[cs.x]?.bind fun a => row[cs.y]?.map fun b => (a, b)

namespace Table

def rows (t : Table) : List Row := t.series.flatMap (·.rows)

theorem columnCells_eq (t : Table) (column : Nat) :
    t.columnCells column = t.rows.filterMap (·[column]?) :=
  List.filterMap_flatMap.symm

/-- Whether a column is numeric does not depend on the order of the rows. -/
theorem isNumeric_of_perm {t t' : Table} (h : t.rows.Perm t'.rows) (column : Nat) :
    t.isNumeric column = t'.isNumeric column := by
  have cells := h.filterMap (·[column]?)
  rw [← columnCells_eq, ← columnCells_eq] at cells
  rw [isNumeric, isNumeric, cells.any_eq, cells.all_eq]

theorem offer_of_perm {t t' : Table} (headers : t.headers = t'.headers)
    (h : t.rows.Perm t'.rows) : Offer.ofTable t = Offer.ofTable t' := by
  simp only [Offer.ofTable, headers, isNumeric_of_perm h]

end Table

namespace Prepared

theorem zip_cells {cs : Columns} {rows : List Row} (reached : Reached cs rows) :
    (cells rows cs.x).zip (cells rows cs.y) = rows.filterMap cs.pair := by
  induction rows with
  | nil => rfl
  | cons r rows ih =>
      obtain ⟨⟨wide, wide'⟩, rest⟩ := List.forall_mem_cons.mp reached
      simp only [cells, List.filterMap_cons, List.getElem?_eq_getElem wide,
        List.getElem?_eq_getElem wide', Columns.pair, List.zip_cons_cons]
      rw [← cells, ← cells, ih rest]
      rfl

theorem length_cells {cs : Columns} {rows : List Row} (reached : Reached cs rows) :
    (cells rows cs.x).length = (cells rows cs.y).length := by
  have x := congrArg List.length (map_some_cells fun r hr => (reached r hr).1)
  have y := congrArg List.length (map_some_cells fun r hr => (reached r hr).2)
  simp only [List.length_map] at x y
  rw [x, y]

section Drawn
variable {cs : Columns} {display : Display} {i : Nat} {s : Series} {t : Trace}

/-- A trace of a series shows the two columns of its rows, and marks either all their pairs or
none. -/
theorem mem_drawn (reached : Reached cs s.rows) (h : t ∈ drawn cs display i s) :
    t.x.length = t.y.length ∧ (t.marked = s.rows.filterMap cs.pair ∨ t.marked = []) := by
  have even := length_cells reached
  rw [drawn, List.mem_cons] at h
  rcases h with rfl | h
  · exact ⟨even, .inl (zip_cells reached)⟩
  · split at h
    · rw [List.mem_singleton.mp h]
      exact ⟨even, .inr rfl⟩
    · cases h

theorem marked_drawn (reached : Reached cs s.rows) :
    (drawn cs display i s).flatMap Trace.marked = s.rows.filterMap cs.pair := by
  rw [drawn, List.flatMap_cons, ← zip_cells reached]
  split
  · exact List.append_nil _
  · exact List.append_nil _

end Drawn

/-- What the blocks of series mark, where the number of a series does not matter. -/
theorem marked_flatten {ss : List Series} {block : Nat → Series → List Trace}
    {pairs : Series → List (Cell × Cell)}
    (h : ∀ i, ∀ s ∈ ss, (block i s).flatMap Trace.marked = pairs s) :
    (ss.mapIdx block).flatten.flatMap Trace.marked = ss.flatMap pairs := by
  induction ss generalizing block with
  | nil => rfl
  | cons s ss ih =>
      have first := h 0 s List.mem_cons_self
      have rest := ih fun i s hs => h (i + 1) s (List.mem_cons_of_mem _ hs)
      rw [List.mapIdx_cons, List.flatten_cons, List.flatMap_append, first, rest, List.flatMap_cons]

/-- Of a table whose rows reach the columns of its settings a plot is made, which marks the pairs of
all rows. -/
theorem marked_of_reached {t : Table} {view : View} {fixed : Nat} {cs : Columns}
    (positive : 0 < fixed) (found : columns t view = .ok cs)
    (reached : ∀ s ∈ t.series, Reached cs s.rows) (others : List Table) :
    ∃ p, ofTables (t :: others) view fixed = .ok p ∧ p.marked = t.rows.filterMap cs.pair ∧
      ∀ tr ∈ p.traces, ∃ i, ∃ s ∈ t.series, tr ∈ drawn cs view.display i s := by
  obtain ⟨grid, plotted⟩ := ofTables_of_columns others positive found
  rw [tracesFrom_eq_ok.mpr ⟨reached, rfl⟩] at plotted
  simp only [Nat.zero_add] at plotted
  have marks : (t.series.mapIdx (drawn cs view.display)).flatten.flatMap Trace.marked = _ :=
    marked_flatten fun i s hs => marked_drawn (reached s hs)
  refine ⟨_, plotted, ?_, fun tr htr => ?_⟩
  · rw [Table.rows, List.filterMap_flatMap]
    exact marks
  · obtain ⟨block, hblock, htr⟩ := List.mem_flatten.mp htr
    obtain ⟨i, hi, rfl⟩ := List.mem_mapIdx.mp hblock
    exact ⟨_, _, List.getElem_mem hi, htr⟩

theorem columns_congr {t t' : Table} (h : t.headers = t'.headers) (view : View) :
    columns t view = columns t' view := by
  simp only [columns, h]

end Prepared

namespace Settings

theorem resolved_of_ofScript {script : Script} {t : Table} {settings : Settings}
    (made : ofScript script (.ofTable t) = .ok settings) :
    ∃ cs, Resolved script t settings cs ∧ settings.columns = script.columns.getD 2 := by
  obtain ⟨x, hx, rest⟩ := bind_eq_ok.mp made
  obtain ⟨y, hy, -⟩ := bind_eq_ok.mp rest
  have named : ∀ {name f}, lookUp (.ofTable t) name = .ok f → name ∈ t.headers := by
    intro name f h
    by_contra absent
    rw [lookUp_ofTable_of_not_mem absent] at h
    cases h
  obtain ⟨_, cs, made', resolved, columns⟩ := resolved_of_mem (named hx) (named hy)
  cases made.symm.trans made'
  exact ⟨cs, resolved, columns⟩

end Settings

namespace Csv

theorem Decoded.unique {bytes : Bytes} {headers headers' : List String}
    {recs recs' : List (List String)} (h : Decoded bytes headers recs)
    (h' : Decoded bytes headers' recs') : headers = headers' ∧ recs = recs' :=
  ⟨Option.some.inj (h.header.symm.trans h'.header), Option.some.inj (h.body.symm.trans h'.body)⟩

/-- What two plots of the same rows have in common. The traces of `whole` mark the pairs in the
order of the rows, and each trace of `split` marks some of them in that order. -/
structure SamePoints (whole split : Prepared) : Prop where
  even : ∀ t ∈ whole.traces ++ split.traces, t.x.length = t.y.length
  perm : split.marked.Perm whole.marked
  inOrder : ∀ t ∈ split.traces, t.marked.Sublist whole.marked

section Regrouped
variable {bytes : Bytes} {name : String} {whole split : Table}

/-- The rows of the whole table are the records in their order, those of the split one are the same
and each series has some of them in that order. -/
structure Regrouped (whole split : Table) : Prop where
  headers : split.headers = whole.headers
  total : split.total = whole.total
  rows : split.rows.Perm whole.rows
  inOrder : ∀ s ∈ split.series, s.rows.Sublist whole.rows

theorem regrouped_of_table (hw : table bytes none = .ok whole)
    (hs : table bytes (some name) = .ok split) : Regrouped whole split := by
  obtain ⟨recs, decoded, total, -, -, series⟩ := table_splits_records hw
  obtain ⟨recs', decoded', total', -, perm, -⟩ := table_splits_records hs
  obtain ⟨headers, rfl⟩ := decoded.unique decoded'
  have rows : whole.rows = recs.map row := by
    rw [Table.rows, series]
    cases recs <;> simp
  refine ⟨headers.symm, total'.trans total.symm, rows ▸ perm, fun s mem => ?_⟩
  obtain ⟨_, tags, key, decoded'', made, -⟩ := table_eq_ok hs
  obtain ⟨-, rfl⟩ := decoded'.unique decoded''
  rw [congrArg Table.series made] at mem
  obtain ⟨k, -, rfl⟩ := mem_seriesBy mem
  rw [rows]
  exact List.filter_sublist.map row

theorem samePoints_of_regrouped (h : Regrouped whole split) {script : Script}
    {settings : Settings} {cs : Columns} (resolved : Settings.Resolved script whole settings cs)
    (positive : 0 < settings.columns.toNat)
    (reachedWhole : ∀ s ∈ whole.series, Prepared.Reached cs s.rows)
    (reachedSplit : ∀ s ∈ split.series, Prepared.Reached cs s.rows) (others others' : List Table) :
    ∃ p q, Prepared.ofTables (whole :: others) settings.view settings.columns.toNat = .ok p ∧
      Prepared.ofTables (split :: others') settings.view settings.columns.toNat = .ok q ∧
      SamePoints p q := by
  have found := resolved.found
  obtain ⟨p, hp, marks, traces⟩ :=
    Prepared.marked_of_reached positive found reachedWhole others
  rw [← Prepared.columns_congr h.headers] at found
  obtain ⟨q, hq, marks', traces'⟩ :=
    Prepared.marked_of_reached positive found reachedSplit others'
  refine ⟨p, q, hp, hq, fun t ht => ?_, ?_, fun t ht => ?_⟩
  · rcases List.mem_append.mp ht with ht | ht
    · obtain ⟨i, s, hs, drawn⟩ := traces t ht
      exact (Prepared.mem_drawn (reachedWhole s hs) drawn).1
    · obtain ⟨i, s, hs, drawn⟩ := traces' t ht
      exact (Prepared.mem_drawn (reachedSplit s hs) drawn).1
  · rw [marks, marks']
    exact h.rows.filterMap cs.pair
  · obtain ⟨i, s, hs, drawn⟩ := traces' t ht
    rw [marks]
    rcases (Prepared.mem_drawn (reachedSplit s hs) drawn).2 with all | none
    · rw [all]
      exact (h.inOrder s hs).filterMap cs.pair
    · rw [none]
      exact List.nil_sublist _

/-- Splitting a table changes neither the fields on offer nor what a script means, and all that is
plotted of the whole table is plotted of the split one. A plot fails for both tables if the script
asks for no columns, which no text of a script does. -/
theorem split_plots_same_points (hw : table bytes none = .ok whole)
    (hs : table bytes (some name) = .ok split) :
    split.headers = whole.headers ∧ split.total = whole.total ∧
      Offer.ofTable split = .ofTable whole ∧ ∀ script : Script,
      Settings.ofScript script (.ofTable split) = Settings.ofScript script (.ofTable whole) ∧
      ∀ settings, Settings.ofScript script (.ofTable whole) = .ok settings →
        (∀ text, Script.ofText text = .ok script → settings.columns ≠ 0) ∧
        ∀ others others', if settings.columns = 0 then
          Prepared.ofTables (whole :: others) settings.view settings.columns.toNat =
              .error .noColumns ∧
            Prepared.ofTables (split :: others') settings.view settings.columns.toNat =
              .error .noColumns
        else ∃ p q, Prepared.ofTables (whole :: others) settings.view settings.columns.toNat = .ok p ∧
          Prepared.ofTables (split :: others') settings.view settings.columns.toNat = .ok q ∧
          SamePoints p q := by
  have regrouped := regrouped_of_table hw hs
  have offer := Table.offer_of_perm regrouped.headers regrouped.rows
  refine ⟨regrouped.headers, regrouped.total, offer, fun script => ⟨by rw [offer], ?_⟩⟩
  intro settings made
  obtain ⟨cs, resolved, columns⟩ := Settings.resolved_of_ofScript made
  have made' := made
  rw [← offer] at made'
  obtain ⟨cs', resolved', -⟩ := Settings.resolved_of_ofScript made'
  have same : cs' = cs := by
    have found := resolved'.found
    rw [Prepared.columns_congr regrouped.headers, resolved.found] at found
    exact (Except.ok.inj found).symm
  subst same
  constructor
  · intro text accepted
    have positive := Settings.columns_pos (Script.scriptText_of_ofText accepted)
    rw [columns]
    rintro zero
    rw [zero] at positive
    exact absurd positive (by decide)
  · intro others others'
    split
    · next zero =>
      rw [zero]
      exact ⟨rfl, rfl⟩
    · next wide =>
      have positive : 0 < settings.columns.toNat :=
        Nat.pos_of_ne_zero fun zero => wide (UInt64.toNat_inj.mp zero)
      exact samePoints_of_regrouped regrouped resolved positive (resolved.reached_of_table hw)
        (resolved'.reached_of_table hs) others others'

end Regrouped

theorem sites_same_points : ∃ whole split settings p q, table sites none = .ok whole ∧
    table sites (some "site") = .ok split ∧ Offer.ofTable split = .ofTable whole ∧
    Settings.ofScript ⟨⟨"n", "site", none⟩, none, none, none⟩ (.ofTable whole) = .ok settings ∧
    Prepared.ofTables [whole] settings.view 2 = .ok p ∧
    Prepared.ofTables [split] settings.view 2 = .ok q ∧ SamePoints p q ∧
    p.marked = [(.ofInt 1, .text "a"), (.ofInt 2, .null), (.text "x", .text "A"),
      (.ofInt 3, .text "a")] ∧
    q.traces.map Trace.marked = [[(.ofInt 1, .text "a"), (.ofInt 3, .text "a")],
      [(.ofInt 2, .null)], [(.text "x", .text "A")]] := by
  obtain ⟨whole, hw⟩ : ∃ t, table sites none = .ok t := ⟨_, rfl⟩
  obtain ⟨split, hs⟩ : ∃ t, table sites (some "site") = .ok t := ⟨_, rfl⟩
  obtain ⟨-, -, offer, plots⟩ := split_plots_same_points hw hs
  obtain ⟨settings, made⟩ : ∃ settings, Settings.ofScript ⟨⟨"n", "site", none⟩, none, none, none⟩
      (.ofTable whole) = .ok settings := by
    cases hw
    exact ⟨_, rfl⟩
  obtain ⟨-, plotted⟩ := (plots _).2 settings made
  have two : settings.columns = 2 := by
    cases hw
    cases made
    rfl
  have both := plotted [] []
  rw [two, if_neg (by decide)] at both
  obtain ⟨p, q, hp, hq, same⟩ := both
  refine ⟨whole, split, settings, p, q, hw, hs, offer, made, hp, hq, same, ?_, ?_⟩
  · cases hw
    cases made
    cases hp
    rfl
  · cases hw
    cases hs
    cases made
    cases hq
    rfl

end Csv
end CorrelationPlot
