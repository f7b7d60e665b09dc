import CorrelationPlot.Proofs.Prepared

/-!
Why a plot is refused. The faults are looked for in a fixed order: the width of the grid, the x
field, the y field, and then the rows, series by series. Within a series the x column is read from
all rows before the y column is read from any.
-/
namespace CorrelationPlot

namespace Selector
variable {f : Selector} {headers : List String}

/-- Neither of its names is the name of a column. -/
def Unknown (f : Selector) (headers : List String) : Prop :=
  f.fullName ∉ headers ∧ f.runtimeName ∉ headers

instance (f : Selector) (headers : List String) : Decidable (f.Unknown headers) :=
  inferInstanceAs (Decidable (_ ∧ _))

theorem column?_eq_none : f.column? headers = none ↔ f.Unknown headers := by
  rw [column?, Option.or_eq_none_iff, List.idxOf?_eq_none_iff, List.idxOf?_eq_none_iff, Unknown]

theorem known_iff : ¬ f.Unknown headers ↔ ∃ i, f.column? headers = some i := by
  rw [← column?_eq_none, ← ne_eq, Option.ne_none_iff_exists']

theorem column_eq_ok {i : Nat} : f.column headers = .ok i ↔ f.column? headers = some i := by
  rw [column]
  cases f.column? headers <;> simp

theorem column_eq_error {fault : PlotFault} : f.column headers = .error fault ↔
    f.Unknown headers ∧ fault = .unknownField f.fullName headers := by
  rw [column, ← column?_eq_none]
  cases f.column? headers <;> simp [eq_comm]

end Selector

namespace Prepared
open Outcome

/-- Both fields are selected and have these columns. -/
structure Located (t : Table) (view : View) (cs : Columns) : Prop where
  x : ∃ x, view.xField = some x ∧ x.column? t.headers = some cs.x
  y : ∃ y, view.yField = some y ∧ y.column? t.headers = some cs.y

/-- Why a field has no column. The y field counts only when the x field has one. -/
inductive FieldFault (t : Table) (view : View) : PlotFault → Prop where
  | xUnselected (unselected : view.xField = none) : FieldFault t view (.unselected .x)
  | xUnknown {x : Selector} (selected : view.xField = some x) (unknown : x.Unknown t.headers) :
      FieldFault t view (.unknownField x.fullName t.headers)
  | yUnselected {x : Selector} (selected : view.xField = some x) (known : ¬ x.Unknown t.headers)
      (unselected : view.yField = none) : FieldFault t view (.unselected .y)
  | yUnknown {x y : Selector} (xSelected : view.xField = some x) (known : ¬ x.Unknown t.headers)
      (ySelected : view.yField = some y) (unknown : y.Unknown t.headers) :
      FieldFault t view (.unknownField y.fullName t.headers)

/-- The fault of the first row that ends before the column. -/
def EndsBefore (series column : Nat) (rows : List Row) (f : PlotFault) : Prop :=
  First (column < ·.length)
    (fun row r => r.length ≤ column ∧ f = .shortRow series row column r.length) rows

/-- The fault of a series. A row that lacks the x cell goes before all that lack the y cell. -/
def RowFault (cs : Columns) (series : Nat) (rows : List Row) (f : PlotFault) : Prop :=
  EndsBefore series cs.x rows f ∨
    (∀ r ∈ rows, cs.x < r.length) ∧ EndsBefore series cs.y rows f

section Columns
variable {t : Table} {view : View} {cs : Columns} {f : PlotFault}

theorem columns_eq_ok : columns t view = .ok cs ↔ Located t view cs := by
  constructor
  · intro found
    simp only [columns, bind_eq_ok, Selector.column_eq_ok] at found
    obtain ⟨x, hx, i, xColumn, y, hy, j, yColumn, made⟩ := found
    cases made
    exact ⟨⟨x, selected_eq_ok.mp hx, xColumn⟩, ⟨y, selected_eq_ok.mp hy, yColumn⟩⟩
  · rintro ⟨⟨x, hx, xColumn⟩, ⟨y, hy, yColumn⟩⟩
    simp only [columns, bind_eq_ok, Selector.column_eq_ok]
    exact ⟨x, selected_eq_ok.mpr hx, cs.x, xColumn, y, selected_eq_ok.mpr hy, cs.y, yColumn, rfl⟩

theorem columns_eq_error : columns t view = .error f ↔ FieldFault t view f := by
  simp only [columns, bind_eq_error, Selector.column_eq_ok, Selector.column_eq_error,
    selected_eq_ok, selected_eq_error]
  constructor
  · rintro (⟨none, rfl⟩ | ⟨x, hx, ⟨unknown, rfl⟩ | ⟨i, found, last⟩⟩)
    · exact .xUnselected none
    · exact .xUnknown hx unknown
    · have known : ¬ x.Unknown t.headers := Selector.known_iff.mpr ⟨i, found⟩
      obtain ⟨none, rfl⟩ | ⟨y, hy, ⟨unknown, rfl⟩ | ⟨j, -, made⟩⟩ := last
      · exact .yUnselected hx known none
      · exact .yUnknown hx known hy unknown
      · cases made
  · intro fault
    cases fault with
    | xUnselected none => exact .inl ⟨none, rfl⟩
    | xUnknown hx unknown => exact .inr ⟨_, hx, .inl ⟨unknown, rfl⟩⟩
    | yUnselected hx known none =>
        obtain ⟨i, found⟩ := Selector.known_iff.mp known
        exact .inr ⟨_, hx, .inr ⟨i, found, .inl ⟨none, rfl⟩⟩⟩
    | yUnknown hx known hy unknown =>
        obtain ⟨i, found⟩ := Selector.known_iff.mp known
        exact .inr ⟨_, hx, .inr ⟨i, found, .inr ⟨_, hy, .inl ⟨unknown, rfl⟩⟩⟩⟩

end Columns

section Rows
variable {cs : Columns} {display : Display} {f : PlotFault}

theorem seriesTraces_fault {i : Nat} {s : Series} :
    seriesTraces i s cs display = .error f ↔ RowFault cs i s.rows f := by
  simp only [seriesTraces_eq_error, project, projectFrom_eq_error, Nat.zero_add, RowFault,
    EndsBefore]

theorem tracesFrom_fault {ss : List Series} : tracesFrom cs display 0 ss = .error f ↔
    First (Reached cs ·.rows) (fun i s => RowFault cs i s.rows f) ss := by
  simp only [tracesFrom_eq_error, seriesTraces_fault, Nat.zero_add]

theorem reached_iff {rows : List Row} :
    Reached cs rows ↔ ∀ r ∈ rows, max cs.x cs.y < r.length := by
  simp only [Reached, Nat.max_lt]

end Rows

section Filled
variable {t : Table} {others : List Table} {view : View} {fixed : Nat}

theorem ofTables_eq_error (positive : 0 < fixed) (filled : t.series ≠ []) {f : PlotFault} :
    ofTables (t :: others) view fixed = .error f ↔
      FieldFault t view f ∨ ∃ cs, Located t view cs ∧
        First (Reached cs ·.rows) (fun i s => RowFault cs i s.rows f) t.series := by
  obtain ⟨grid, hgrid⟩ : ∃ grid, Grid.forSeries t.series.length fixed = .ok grid :=
    ⟨_, Grid.forSeries_eq_ok.mpr ⟨positive, rfl⟩⟩
  simp only [ofTables, hgrid, bind_eq_error, if_neg filled, columns_eq_error, columns_eq_ok,
    tracesFrom_fault, reduceCtorEq, and_false, exists_false, or_false, false_or, Except.ok.injEq,
    exists_eq_left']

theorem ofTables_isOk (positive : 0 < fixed) (filled : t.series ≠ []) :
    (∃ p, ofTables (t :: others) view fixed = .ok p) ↔
      ∃ cs, Located t view cs ∧ ∀ s ∈ t.series, ∀ r ∈ s.rows, max cs.x cs.y < r.length := by
  simp only [ofTables_cons_eq_ok filled, columns_eq_ok, reached_iff]
  constructor
  · rintro ⟨p, grid, cs, -, located, reached, -⟩
    exact ⟨cs, located, reached⟩
  · rintro ⟨cs, located, reached⟩
    exact ⟨_, _, cs, Grid.forSeries_eq_ok.mpr ⟨positive, rfl⟩, located, reached, rfl⟩

theorem ofTables_shortRow (positive : 0 < fixed) (filled : t.series ≠ []) :
    (∃ series row column width,
        ofTables (t :: others) view fixed = .error (.shortRow series row column width)) ↔
      ∃ cs, Located t view cs ∧ ∃ s ∈ t.series, ∃ r ∈ s.rows, r.length ≤ max cs.x cs.y := by
  constructor
  · rintro ⟨series, row, column, width, refused⟩
    obtain field | ⟨cs, located, -⟩ := (ofTables_eq_error positive filled).mp refused
    · cases field
    · refine ⟨cs, located, ?_⟩
      by_contra none
      have wide : ∀ s ∈ t.series, ∀ r ∈ s.rows, max cs.x cs.y < r.length :=
        fun s hs r hr => Nat.lt_of_not_le fun short => none ⟨s, hs, r, hr, short⟩
      obtain ⟨p, plotted⟩ := (ofTables_isOk positive filled).mpr ⟨cs, located, wide⟩
      rw [refused] at plotted
      cases plotted
  · rintro ⟨cs, located, s, hs, r, hr, short⟩
    have found : columns t view = .ok cs := columns_eq_ok.mpr located
    obtain ⟨grid, made⟩ := ofTables_of_columns others positive found
    cases traces : tracesFrom cs view.display 0 t.series with
    | ok ts =>
        have wide := reached_iff.mp ((tracesFrom_eq_ok.mp traces).1 s hs) r hr
        exact absurd short (Nat.not_le_of_lt wide)
    | error f =>
        obtain ⟨series, row, column, width, rfl⟩ := shortRow_of_tracesFrom traces
        rw [made, traces]
        exact ⟨series, row, column, width, rfl⟩

end Filled

theorem ofTables_without_series {tables : List Table} {view : View} {fixed : Nat}
    (positive : 0 < fixed) (empty : ∀ t ∈ tables.head?, t.series = []) :
    ofTables tables view fixed = .ok ⟨[], ⟨0, fixed⟩, []⟩ := by
  have grid : Grid.forSeries 0 fixed = .ok ⟨0, fixed⟩ := by
    rw [Grid.forSeries_eq_ok, Nat.zero_add, Nat.div_eq_of_lt (Nat.sub_one_lt_of_lt positive)]
    exact ⟨positive, rfl⟩
  cases tables with
  | nil =>
      rw [ofTables, grid]
      rfl
  | cons t others =>
      have none : t.series = [] := empty t rfl
      rw [ofTables, none, List.length_nil, grid]
      rfl

theorem ofTables_first (tables : List Table) (view : View) (fixed : Nat) :
    ofTables tables view fixed = ofTables (tables.take 1) view fixed := by
  cases tables <;> rfl

theorem ofTables_noColumns {tables : List Table} {view : View} {fixed : Nat} :
    ofTables tables view fixed = .error .noColumns ↔ fixed = 0 := by
  constructor
  · intro refused
    by_contra nonzero
    have positive : 0 < fixed := Nat.pos_of_ne_zero nonzero
    by_cases empty : ∀ t ∈ tables.head?, t.series = []
    · rw [ofTables_without_series positive empty] at refused
      cases refused
    · obtain ⟨t, others, rfl, filled⟩ : ∃ t others, tables = t :: others ∧ t.series ≠ [] := by
        cases tables with
        | nil => exact absurd nofun empty
        | cons t others => exact ⟨t, others, rfl, fun none => empty (by simpa using none)⟩
      obtain field | ⟨cs, -, first⟩ := (ofTables_eq_error positive filled).mp refused
      · cases field
      · have traces : tracesFrom cs view.display 0 t.series = .error .noColumns :=
          tracesFrom_fault.mpr first
        obtain ⟨_, _, _, _, made⟩ := shortRow_of_tracesFrom traces
        cases made
  · rintro rfl
    cases tables <;> rfl

/-- When a plot is made of tables, and if not, why. A grid without columns is refused before all,
and nothing else is looked at when the first table has no series. Then come the fields and then the
rows: of the first series with a row that ends before one of the two columns, the first row that
lacks the x cell, or if there is none, the first that lacks the y cell. -/
theorem ofTables_first_fault (tables : List Table) (view : View) (fixed : Nat) :
    (ofTables tables view fixed = .error .noColumns ↔ fixed = 0) ∧
    (0 < fixed → (∀ t ∈ tables.head?, t.series = []) →
      ofTables tables view fixed = .ok ⟨[], ⟨0, fixed⟩, []⟩) ∧
    (0 < fixed → ∀ t ∈ tables.head?, t.series ≠ [] →
      (∀ f, ofTables tables view fixed = .error f ↔
        FieldFault t view f ∨ ∃ cs, Located t view cs ∧
          First (Reached cs ·.rows) (fun i s => RowFault cs i s.rows f) t.series) ∧
      ((∃ series row column width,
          ofTables tables view fixed = .error (.shortRow series row column width)) ↔
        ∃ cs, Located t view cs ∧ ∃ s ∈ t.series, ∃ r ∈ s.rows, r.length ≤ max cs.x cs.y) ∧
      ((∃ p, ofTables tables view fixed = .ok p) ↔
        ∃ cs, Located t view cs ∧ ∀ s ∈ t.series, ∀ r ∈ s.rows, max cs.x cs.y < r.length)) ∧
    ofTables tables view fixed = ofTables (tables.take 1) view fixed := by
  refine ⟨ofTables_noColumns, ofTables_without_series, ?_, ofTables_first tables view fixed⟩
  intro positive t first filled
  obtain ⟨others, rfl⟩ : ∃ others, tables = t :: others := List.head?_eq_some_iff.mp first
  exact ⟨fun f => ofTables_eq_error positive filled, ofTables_shortRow positive filled,
    ofTables_isOk positive filled⟩

/-- In the second series a row ends before the level, and a later one before the flow. -/
def ragged : Table :=
  ⟨["flow", "state", "level"],
    [.ofRows [[.ofInt 1, .null, .ofInt 2]] none,
      .ofRows [[.ofInt 1, .null, .ofInt 2], [.ofInt 3], [], [.ofInt 4]] none], some 5⟩

def raggedView : View := ⟨some (.named "flow" true), some (.named "level" true), .scatter⟩

/-- The later row is reported. Before a first table without series nothing of it matters, not even
that no field is selected. -/
theorem ragged_fault : 0 < 2 ∧ ragged ∈ [ragged, pumps].head? ∧ ragged.series ≠ [] ∧
    ofTables [ragged, pumps] raggedView 2 = .error (.shortRow 1 2 0 0) ∧
    (∀ t ∈ [⟨["flow"], [], none⟩, ragged].head?, t.series = []) ∧
    ofTables [⟨["flow"], [], none⟩, ragged] {} 2 = .ok ⟨[], ⟨0, 2⟩, []⟩ := by
  have first : ragged ∈ [ragged, pumps].head? := rfl
  have series : ragged.series ≠ [] := nofun
  have located : Located ragged raggedView ⟨0, 2⟩ := ⟨⟨_, rfl, rfl⟩, ⟨_, rfl, rfl⟩⟩
  have lacksFlow : EndsBefore 1 0 [[.ofInt 1, .null, .ofInt 2], [.ofInt 3], [], [.ofInt 4]]
      (.shortRow 1 2 0 0) :=
    ⟨[[.ofInt 1, .null, .ofInt 2], [.ofInt 3]], [], [[.ofInt 4]], rfl, by decide, by decide, rfl⟩
  have fault : First (Reached ⟨0, 2⟩ ·.rows)
      (fun i s => RowFault ⟨0, 2⟩ i s.rows (.shortRow 1 2 0 0)) ragged.series :=
    ⟨[.ofRows [[.ofInt 1, .null, .ofInt 2]] none], _, [], rfl, by decide, .inl lacksFlow⟩
  have empty : ∀ t ∈ [⟨["flow"], [], none⟩, ragged].head?, t.series = [] := by
    rintro _ ⟨⟩
    rfl
  obtain ⟨-, -, filled, -⟩ := ofTables_first_fault [ragged, pumps] raggedView 2
  obtain ⟨refused, -⟩ := filled (by decide) ragged first series
  obtain ⟨-, none, -⟩ := ofTables_first_fault [⟨["flow"], [], none⟩, ragged] {} 2
  exact ⟨by decide, first, series, (refused _).mpr (.inr ⟨_, located, fault⟩), empty,
    none (by decide) empty⟩

end Prepared
end CorrelationPlot
