import CorrelationPlot.Plot.Prepared
import CorrelationPlot.Proofs.Outcome
import CorrelationPlot.Proofs.Palette
import CorrelationPlot.Proofs.Panel

/-!
The plot of a table, series by series. Every series contributes one block of traces, and all blocks
have the same length, so the traces of a series are found by its number alone.
-/
namespace CorrelationPlot

section Blocks
variable {α : Type} {blocks : List (List α)} {m : Nat}

theorem length_flatten_of_length (h : ∀ b ∈ blocks, b.length = m) :
    blocks.flatten.length = m * blocks.length := by
  induction blocks with
  | nil => simp
  | cons b blocks ih =>
      rw [List.flatten_cons, List.length_append, h b List.mem_cons_self,
        ih fun b hb => h b (List.mem_cons_of_mem _ hb), List.length_cons, Nat.mul_succ,
        Nat.add_comm]

theorem getElem?_flatten_of_length (h : ∀ b ∈ blocks, b.length = m) (i : Nat) {j : Nat}
    (hj : j < m) : blocks.flatten[m * i + j]? = blocks[i]?.bind (·[j]?) := by
  induction blocks generalizing i with
  | nil => simp
  | cons b blocks ih =>
      have hb := h b List.mem_cons_self
      rw [List.flatten_cons]
      cases i with
      | zero =>
          rw [List.getElem?_append_left (by omega)]
          simp
      | succ i =>
          have next : m * (i + 1) + j = b.length + (m * i + j) := by rw [hb, Nat.mul_succ]; omega
          rw [next, List.getElem?_append_right (by omega), Nat.add_sub_cancel_left,
            ih fun b hb => h b (List.mem_cons_of_mem _ hb)]
          simp

/-- Of blocks whose elements have the number of their block as key, a key selects its block. -/
theorem filter_flatten_of_key {key : α → Option Nat} {n : Nat}
    (h : ∀ i b, blocks[i]? = some b → ∀ a ∈ b, key a = some (n + i)) (i : Nat) :
    blocks.flatten.filter (fun a => key a = some (n + i)) = blocks[i]?.getD [] := by
  induction blocks generalizing n i with
  | nil => rfl
  | cons b blocks ih =>
      have first : ∀ a ∈ b, key a = some n := h 0 b rfl
      have later : ∀ i b, blocks[i]? = some b → ∀ a ∈ b, key a = some (n + 1 + i) := by
        intro i b hb a ha
        rw [h (i + 1) b hb a ha, Nat.add_assoc, Nat.add_comm 1 i]
      rw [List.flatten_cons, List.filter_append]
      cases i with
      | zero =>
          have none : blocks.flatten.filter (fun a => key a = some (n + 0)) = [] := by
            rw [List.filter_eq_nil_iff]
            intro a ha
            obtain ⟨b, hb, hab⟩ := List.mem_flatten.mp ha
            obtain ⟨j, hj⟩ := List.mem_iff_getElem?.mp hb
            simp only [later j b hj a hab, decide_eq_true_eq, Option.some.injEq]
            omega
          rw [none, List.append_nil, List.filter_eq_self.mpr fun a ha => by simp [first a ha]]
          rfl
      | succ i =>
          have none : b.filter (fun a => key a = some (n + (i + 1))) = [] := by
            rw [List.filter_eq_nil_iff]
            intro a ha
            simp only [first a ha, decide_eq_true_eq, Option.some.injEq]
            omega
          have same : n + (i + 1) = n + 1 + i := by omega
          rw [none, List.nil_append, same, ih later i]
          rfl

theorem flatMap_range_getElem? {n : Nat} (h : blocks.length ≤ n) :
    (List.range n).flatMap (fun i => blocks[i]?.getD []) = blocks.flatten := by
  induction blocks generalizing n with
  | nil => simp
  | cons b blocks ih =>
      obtain ⟨m, rfl⟩ : ∃ m, n = m + 1 := ⟨n - 1, by rw [List.length_cons] at h; omega⟩
      rw [List.range_succ_eq_map, List.flatMap_cons, List.flatMap_map, List.flatten_cons]
      exact congrArg (b ++ ·) (ih (Nat.le_of_succ_le_succ h))

theorem filterMap_range_getElem? {β : Type} {as : List α} {n : Nat} (h : as.length ≤ n)
    (f : α → Option β) : (List.range n).filterMap (fun i => as[i]?.bind f) = as.filterMap f := by
  induction as generalizing n with
  | nil => simp
  | cons a as ih =>
      obtain ⟨m, rfl⟩ : ∃ m, n = m + 1 := ⟨n - 1, by rw [List.length_cons] at h; omega⟩
      rw [List.range_succ_eq_map, List.filterMap_cons, List.filterMap_map, List.filterMap_cons,
        ← ih (Nat.le_of_succ_le_succ h)]
      rfl

end Blocks

/-- The number of traces that show one series. -/
def Display.tracesEach (d : Display) : Nat := if d.isDensity then 2 else 1

namespace Prepared
open Outcome

theorem selected_eq_ok {axis : Axis} {field : Option Selector} {f : Selector} :
    selected axis field = .ok f ↔ field = some f := by
  cases field <;> simp [selected]

theorem selected_eq_error {axis : Axis} {field : Option Selector} {f : PlotFault} :
    selected axis field = .error f ↔ field = none ∧ f = .unselected axis := by
  cases field <;> simp [selected, eq_comm]

/-- The cells of a column. -/
def cells (rows : List Row) (column : Nat) : List Cell := rows.filterMap (·[column]?)

theorem map_some_cells {rows : List Row} {column : Nat} (h : ∀ r ∈ rows, column < r.length) :
    (cells rows column).map some = rows.map (·[column]?) := by
  induction rows with
  | nil => rfl
  | cons r rows ih =>
      obtain ⟨wide, wider⟩ := List.forall_mem_cons.mp h
      rw [List.map_cons, ← ih wider, cells, List.filterMap_cons, List.getElem?_eq_getElem wide]
      rfl

theorem projectFrom_eq_ok {series column row : Nat} {rows : List Row} {xs : List Cell} :
    projectFrom series column row rows = .ok xs ↔
      (∀ r ∈ rows, column < r.length) ∧ xs = cells rows column := by
  induction rows generalizing row xs with
  | nil => simp [projectFrom, cells, eq_comm]
  | cons r rows ih =>
      rw [projectFrom]
      split
      · next c hc =>
        have wide : column < r.length := (List.getElem?_eq_some_iff.mp hc).1
        simp only [map_eq_ok, ih, List.forall_mem_cons, wide, true_and, cells, List.filterMap_cons,
          hc]
        constructor
        · rintro ⟨rest, ⟨wider, rfl⟩, rfl⟩
          exact ⟨wider, rfl⟩
        · rintro ⟨wider, rfl⟩
          exact ⟨_, ⟨wider, rfl⟩, rfl⟩
      · next hc =>
        have short : ¬ column < r.length := by simpa using hc
        simp [short]

theorem projectFrom_eq_error {series column row : Nat} {rows : List Row} {f : PlotFault} :
    projectFrom series column row rows = .error f ↔
      First (column < ·.length)
        (fun k r => r.length ≤ column ∧ f = .shortRow series (row + k) column r.length) rows := by
  induction rows generalizing row with
  | nil => simp [projectFrom, not_first_nil]
  | cons r rows ih =>
      rw [projectFrom, first_cons]
      split
      · next c hc =>
        have wide : column < r.length := (List.getElem?_eq_some_iff.mp hc).1
        simp only [map_eq_error, ih, wide, Nat.not_le_of_lt wide, false_and, false_or, true_and,
          Nat.add_assoc, Nat.add_comm 1]
      · next hc =>
        have short : r.length ≤ column := by simpa using hc
        simp [short, Nat.not_lt_of_le short, eq_comm]

/-- Every row has a cell in both columns. -/
def Reached (columns : Columns) (rows : List Row) : Prop :=
  ∀ r ∈ rows, columns.x < r.length ∧ columns.y < r.length

instance (columns : Columns) (rows : List Row) : Decidable (Reached columns rows) :=
  inferInstanceAs (Decidable (∀ r ∈ rows, _))

/-- The block of traces of series `i`. -/
def drawn (columns : Columns) (display : Display) (i : Nat) (s : Series) : List Trace :=
  let x := cells s.rows columns.x
  let y := cells s.rows columns.y
  .scatter (scatter i s display x y) ::
    if display.isDensity then [.contour (contour i s x y)] else []

theorem length_drawn (columns : Columns) (display : Display) (i : Nat) (s : Series) :
    (drawn columns display i s).length = display.tracesEach := by
  rw [drawn, Display.tracesEach]
  split <;> rfl

theorem seriesTraces_eq_ok {columns : Columns} {display : Display} {i : Nat} {s : Series}
    {ts : List Trace} : seriesTraces i s columns display = .ok ts ↔
      Reached columns s.rows ∧ ts = drawn columns display i s := by
  simp only [seriesTraces, project, bind_eq_ok, projectFrom_eq_ok, Reached, forall_and, drawn]
  constructor
  · rintro ⟨x, ⟨wide, rfl⟩, y, ⟨wide', rfl⟩, h⟩
    cases h
    refine ⟨⟨wide, wide'⟩, ?_⟩
    split <;> rfl
  · rintro ⟨⟨wide, wide'⟩, rfl⟩
    refine ⟨_, ⟨wide, rfl⟩, _, ⟨wide', rfl⟩, ?_⟩
    split <;> rfl

/-- The x cells are looked for first. -/
theorem seriesTraces_eq_error {columns : Columns} {display : Display} {i : Nat} {s : Series}
    {f : PlotFault} : seriesTraces i s columns display = .error f ↔
      project i s.rows columns.x = .error f ∨
        (∀ r ∈ s.rows, columns.x < r.length) ∧ project i s.rows columns.y = .error f := by
  simp [seriesTraces, project, bind_eq_error, projectFrom_eq_ok]

theorem tracesFrom_eq_ok {columns : Columns} {display : Display} {i : Nat} {ss : List Series}
    {ts : List Trace} : tracesFrom columns display i ss = .ok ts ↔
      (∀ s ∈ ss, Reached columns s.rows) ∧
        ts = (ss.mapIdx fun k s => drawn columns display (i + k) s).flatten := by
  induction ss generalizing i ts with
  | nil => simp [tracesFrom, eq_comm]
  | cons s ss ih =>
      simp only [tracesFrom, bind_eq_ok, seriesTraces_eq_ok, ih, List.forall_mem_cons,
        List.mapIdx_cons, List.flatten_cons, Nat.add_zero, Nat.add_assoc, Nat.add_comm 1]
      constructor
      · rintro ⟨block, ⟨reached, rfl⟩, more, ⟨rest, rfl⟩, h⟩
        cases h
        exact ⟨⟨reached, rest⟩, rfl⟩
      · rintro ⟨⟨reached, rest⟩, rfl⟩
        exact ⟨_, ⟨reached, rfl⟩, _, ⟨rest, rfl⟩, rfl⟩

/-- The fault is that of the first series with one. -/
theorem tracesFrom_eq_error {columns : Columns} {display : Display} {i : Nat} {ss : List Series}
    {f : PlotFault} : tracesFrom columns display i ss = .error f ↔
      First (Reached columns ·.rows)
        (fun k s => seriesTraces (i + k) s columns display = .error f) ss := by
  induction ss generalizing i with
  | nil => simp [tracesFrom, not_first_nil]
  | cons s ss ih =>
      rw [first_cons]
      simp [tracesFrom, bind_eq_error, seriesTraces_eq_ok, ih, Nat.add_assoc, Nat.add_comm 1]

/-- What a plot of series is made of. -/
theorem ofTables_cons_eq_ok {t : Table} {others : List Table} {view : View} {fixed : Nat}
    {p : Prepared} (filled : t.series ≠ []) :
    ofTables (t :: others) view fixed = .ok p ↔
      ∃ grid cs, Grid.forSeries t.series.length fixed = .ok grid ∧ columns t view = .ok cs ∧
        (∀ s ∈ t.series, Reached cs s.rows) ∧
        p = ⟨(t.series.mapIdx (drawn cs view.display)).flatten, grid,
          t.series.mapIdx (placement grid)⟩ := by
  simp only [ofTables, if_neg filled, bind_eq_ok, tracesFrom_eq_ok, Nat.zero_add]
  constructor
  · rintro ⟨grid, hgrid, cs, hcs, ts, ⟨reached, rfl⟩, h⟩
    cases h
    exact ⟨grid, cs, hgrid, hcs, reached, rfl⟩
  · rintro ⟨grid, cs, hgrid, hcs, reached, rfl⟩
    exact ⟨grid, hgrid, cs, hcs, _, ⟨reached, rfl⟩, rfl⟩

/-- Once the fields are found, only the traces can fail. -/
theorem ofTables_of_columns {t : Table} (others : List Table) {view : View} {fixed : Nat}
    {cs : Columns} (positive : 0 < fixed) (found : columns t view = .ok cs) :
    ∃ grid, ofTables (t :: others) view fixed =
      (tracesFrom cs view.display 0 t.series).map
        fun ts => ⟨ts, grid, t.series.mapIdx (placement grid)⟩ := by
  obtain ⟨grid, hgrid⟩ : ∃ grid, Grid.forSeries t.series.length fixed = .ok grid :=
    ⟨_, Grid.forSeries_eq_ok.mpr ⟨positive, rfl⟩⟩
  refine ⟨grid, ?_⟩
  rw [ofTables, hgrid]
  by_cases empty : t.series = []
  · simp [bind, Except.bind, empty, tracesFrom, Except.map]
  · simp only [bind, Except.bind, if_neg empty, found]
    cases tracesFrom cs view.display 0 t.series <;> rfl

theorem shortRow_of_project {i column : Nat} {rows : List Row} {f : PlotFault}
    (h : project i rows column = .error f) :
    ∃ series row column width, f = .shortRow series row column width := by
  obtain ⟨before, r, after, -, -, -, rfl⟩ := projectFrom_eq_error.mp h
  exact ⟨_, _, _, _, rfl⟩

theorem shortRow_of_tracesFrom {columns : Columns} {display : Display} {i : Nat} {ss : List Series}
    {f : PlotFault} (h : tracesFrom columns display i ss = .error f) :
    ∃ series row column width, f = .shortRow series row column width := by
  obtain ⟨before, s, after, -, -, here⟩ := tracesFrom_eq_error.mp h
  obtain here | ⟨-, here⟩ := seriesTraces_eq_error.mp here
  · exact shortRow_of_project here
  · exact shortRow_of_project here

/-- What a successful plot is made of. A plot without series depends on the width alone. -/
theorem ofTables_eq_ok {tables : List Table} {view : View} {fixed : Nat} {p : Prepared}
    (h : ofTables tables view fixed = .ok p) :
    ((∀ t ∈ tables.head?, t.series = []) ∧
      ∃ grid, Grid.forSeries 0 fixed = .ok grid ∧ p = ⟨[], grid, []⟩) ∨
    ∃ t others grid cs, tables = t :: others ∧ t.series ≠ [] ∧
      Grid.forSeries t.series.length fixed = .ok grid ∧ columns t view = .ok cs ∧
      (∀ s ∈ t.series, Reached cs s.rows) ∧
      p = ⟨(t.series.mapIdx (drawn cs view.display)).flatten, grid,
        t.series.mapIdx (placement grid)⟩ := by
  cases tables with
  | nil =>
      obtain ⟨grid, hgrid, h⟩ := bind_eq_ok.mp h
      cases h
      exact .inl ⟨by simp, grid, hgrid, rfl⟩
  | cons t others =>
      by_cases empty : t.series = []
      · obtain ⟨grid, hgrid, h⟩ := bind_eq_ok.mp h
        rw [if_pos empty] at h
        cases h
        rw [empty] at hgrid
        exact .inl ⟨by simpa using empty, grid, hgrid, rfl⟩
      · obtain ⟨grid, cs, made⟩ := (ofTables_cons_eq_ok empty).mp h
        exact .inr ⟨t, others, grid, cs, rfl, empty, made⟩

/-- Placement `i` is that of series `i`: it has the axes and the cell of that number, and the block
of traces with that number bears its name and its axes, markers first. -/
structure Laid (display : Display) (p : Prepared) : Prop where
  panel : ∀ i q, p.placements[i]? = some q →
    q.series = i ∧ (q.xAxis, q.yAxis) = Panel.axes i ∧ (q.row, q.column) = p.grid.cell i ∧
      q.row < p.grid.rows ∧ q.column < p.grid.columns
  length : p.traces.length = display.tracesEach * p.placements.length
  markers : ∀ i q, p.placements[i]? = some q →
    ∃ t, p.traces[display.tracesEach * i]? = some (.scatter t) ∧
      t.name = q.name ∧ t.xAxis = q.xAxis ∧ t.yAxis = q.yAxis
  density : display.isDensity → ∀ i q, p.placements[i]? = some q →
    ∃ t, p.traces[display.tracesEach * i + 1]? = some (.contour t) ∧
      t.name = q.name ∧ t.xAxis = q.xAxis ∧ t.yAxis = q.yAxis

theorem laid_empty (display : Display) (grid : Grid) : Laid display ⟨[], grid, []⟩ where
  panel := by simp
  length := by simp
  markers := by simp
  density := by simp

theorem laid_series (cs : Columns) (display : Display) (ss : List Series) {fixed : Nat}
    {grid : Grid} (h : Grid.forSeries ss.length fixed = .ok grid) :
    Laid display ⟨(ss.mapIdx (drawn cs display)).flatten, grid, ss.mapIdx (placement grid)⟩ := by
  have blocks : ∀ b ∈ ss.mapIdx (drawn cs display), b.length = display.tracesEach := by
    intro b hb
    obtain ⟨i, hi, rfl⟩ := List.mem_mapIdx.mp hb
    exact length_drawn cs display i _
  -- Both lists are made from the same series, so equal numbers lead to the same one.
  have series : ∀ i q, (ss.mapIdx (placement grid))[i]? = some q →
      ∃ s, ss[i]? = some s ∧ q = placement grid i s := by
    intro i q hq
    rw [List.getElem?_mapIdx, Option.map_eq_some_iff] at hq
    obtain ⟨s, hs, rfl⟩ := hq
    exact ⟨s, hs, rfl⟩
  constructor
  · intro i q hq
    obtain ⟨s, hs, rfl⟩ := series i q hq
    obtain ⟨hi, -⟩ := List.getElem?_eq_some_iff.mp hs
    exact ⟨rfl, rfl, rfl, Grid.cell_lt h hi⟩
  · rw [length_flatten_of_length blocks, List.length_mapIdx, List.length_mapIdx]
  · intro i q hq
    obtain ⟨s, hs, rfl⟩ := series i q hq
    have first : 0 < display.tracesEach := by rw [Display.tracesEach]; split <;> omega
    have trace := getElem?_flatten_of_length blocks i first
    rw [List.getElem?_mapIdx, hs, Nat.add_zero] at trace
    exact ⟨_, trace, rfl, rfl, rfl⟩
  · intro hd i q hq
    obtain ⟨s, hs, rfl⟩ := series i q hq
    have second : 1 < display.tracesEach := by rw [Display.tracesEach, if_pos hd]; omega
    have trace := getElem?_flatten_of_length blocks i second
    rw [List.getElem?_mapIdx, hs] at trace
    simp only [Option.map_some, Option.bind_some, drawn, if_pos hd] at trace
    exact ⟨_, trace, rfl, rfl, rfl⟩

theorem laid_ofTables {tables : List Table} {view : View} {fixed : Nat} {p : Prepared}
    (h : ofTables tables view fixed = .ok p) : Laid view.display p := by
  rcases ofTables_eq_ok h with ⟨-, grid, -, rfl⟩ | ⟨t, others, grid, cs, -, -, hgrid, -, -, rfl⟩
  · exact laid_empty view.display grid
  · exact laid_series cs view.display t.series hgrid

/-- All traces of a block bear the name of their placement. -/
theorem Laid.name {display : Display} {p : Prepared} (h : Laid display p) {i : Nat} {q : Placement}
    (hq : p.placements[i]? = some q) {k : Nat} (hk : k < display.tracesEach) :
    ∃ t, p.traces[display.tracesEach * i + k]? = some t ∧ t.name = q.name := by
  cases k with
  | zero =>
      obtain ⟨t, ht, name, -⟩ := h.markers i q hq
      exact ⟨_, ht, name⟩
  | succ k =>
      rw [Display.tracesEach] at hk
      split at hk
      · next dense =>
        obtain ⟨t, ht, name, -⟩ := h.density dense i q hq
        obtain rfl : k = 0 := by omega
        exact ⟨_, ht, name⟩
      · omega

/-- Every series of the first table has the placement of its number, under its own name. -/
theorem placement_of_series {t : Table} {others : List Table} {view : View} {fixed : Nat}
    {p : Prepared} (h : ofTables (t :: others) view fixed = .ok p) {i : Nat} {s : Series}
    (hs : t.series[i]? = some s) : ∃ q, p.placements[i]? = some q ∧ q.name = s.nameOr untagged := by
  rcases ofTables_eq_ok h with ⟨empty, -⟩ | ⟨t', others', grid, cs, same, -, -, -, -, rfl⟩
  · rw [empty t rfl] at hs
    simp at hs
  · cases same
    exact ⟨placement grid i s, by simp [List.getElem?_mapIdx, hs], rfl⟩

/-- Neither a cell nor an axis serves two placements. -/
theorem Laid.apart {display : Display} {p : Prepared} (h : Laid display p) {i j : Nat}
    {q r : Placement} (hq : p.placements[i]? = some q) (hr : p.placements[j]? = some r)
    (ne : i ≠ j) :
    (q.row, q.column) ≠ (r.row, r.column) ∧ q.xAxis ≠ r.xAxis ∧ q.yAxis ≠ r.yAxis ∧
      q.xAxis ≠ r.yAxis := by
  obtain ⟨-, axes, cell, -⟩ := h.panel i q hq
  obtain ⟨-, axes', cell', -⟩ := h.panel j r hr
  rw [Panel.axes, Prod.mk.injEq] at axes axes'
  rw [axes.1, axes.2, axes'.1, axes'.2, cell, cell']
  refine ⟨fun same => ne (Grid.cell_injective _ same), ?_, ?_, ?_⟩ <;> intro same <;>
    have := Panel.axisId_injective same
  · exact ne this.2
  · exact ne this.2
  · exact absurd this.1 (by decide)

/-- A trace that shows series `i`: row by row the cells of the two columns as they are, under the
value of the first tag, on the axes of that number. -/
structure Shows (cs : Columns) (i : Nat) (s : Series) (t : Trace) : Prop where
  x : t.x.map some = s.rows.map (·[cs.x]?)
  y : t.y.map some = s.rows.map (·[cs.y]?)
  name : t.name = ((s.tags.bind (·.head?)).map (·.2)).getD "density"
  axes : (t.xAxis, t.yAxis) = Panel.axes i

theorem nameOr_eq (s : Series) (default : String) :
    s.nameOr default = ((s.tags.bind (·.head?)).map (·.2)).getD default := by
  rcases s with ⟨total, rows, _ | _ | ⟨tag, tags⟩⟩ <;> rfl

theorem shows_scatter {cs : Columns} {s : Series} (h : Reached cs s.rows) (display : Display)
    (i : Nat) :
    Shows cs i s (.scatter (scatter i s display (cells s.rows cs.x) (cells s.rows cs.y))) where
  x := map_some_cells fun r hr => (h r hr).1
  y := map_some_cells fun r hr => (h r hr).2
  name := nameOr_eq s untagged
  axes := rfl

theorem shows_contour {cs : Columns} {s : Series} (h : Reached cs s.rows) (i : Nat) :
    Shows cs i s (.contour (contour i s (cells s.rows cs.x) (cells s.rows cs.y))) where
  x := map_some_cells fun r hr => (h r hr).1
  y := map_some_cells fun r hr => (h r hr).2
  name := nameOr_eq s untagged
  axes := rfl

/-- A plot is the blocks of its series, one behind the other. The block of a series is made from its
number, its own rows and tags, the two columns and the display, and from nothing else. -/
theorem traces_of_series {t : Table} {others : List Table} {view : View} {fixed : Nat}
    {p : Prepared} (filled : t.series ≠ []) (h : ofTables (t :: others) view fixed = .ok p) :
    ∃ cs, columns t view = .ok cs ∧ Grid.forSeries t.series.length fixed = .ok p.grid ∧
      p.placements.length = t.series.length ∧
      p.traces = (t.series.mapIdx (drawn cs view.display)).flatten ∧
      ∀ i s, t.series[i]? = some s → ∃ m : ScatterTrace, Shows cs i s (.scatter m) ∧
        (∃ color : Rgb, m.marker.color = color.hex ∧
          (fun c? => c? >>= fun c => Rgb.lighten c 11)^[i] (.ok ⟨0x01, 0x5c, 0x0d⟩) = .ok color) ∧
        if view.display = .density then
          (m.marker.size, m.marker.opacity) = (2, 0.4) ∧
          ∃ d : ContourTrace, Shows cs i s (.contour d) ∧
            drawn cs view.display i s = [.scatter m, .contour d]
        else
          (m.marker.size, m.marker.opacity) = (5, 0.9) ∧
          drawn cs view.display i s = [.scatter m] := by
  obtain ⟨grid, cs, hgrid, hcs, reached, rfl⟩ := (ofTables_cons_eq_ok filled).mp h
  refine ⟨cs, hcs, hgrid, List.length_mapIdx, rfl, fun i s hs => ?_⟩
  have here : Reached cs s.rows := reached s (List.mem_of_getElem? hs)
  refine ⟨_, shows_scatter here view.display i, ?_, ?_⟩
  · exact ⟨_, rfl, Ramp.iterate_lighten (r := {}) (Ramp.color_default i)⟩
  · by_cases dense : view.display = .density
    · rw [if_pos dense, dense]
      exact ⟨rfl, _, shows_contour here i, rfl⟩
    · have plain : view.display.isDensity = false := decide_eq_false dense
      rw [if_neg dense]
      refine ⟨?_, ?_⟩
      · simp [scatter, Display.markerStyle, plain]
      · simp [drawn, plain]

/-- Readings of two pumps; the second series has no tags. -/
def pumps : Table :=
  ⟨["state", "flow", "level"],
    [.ofRows [[.text "on", .ofInt 1, .ofInt 2], [.null, .ofInt 3, .null]] (some [("pump", "p1")]),
      .ofRows [[.null, .text "low", .ofInt 4, .null]] none], some 3⟩

def pumpsView : View := ⟨some (.named "level" true), some (.named "flow" true), .density⟩

theorem pumps_traces : pumps.series ≠ [] ∧
    ∃ p, ofTables [pumps] pumpsView 2 = .ok p ∧ Grid.forSeries 2 2 = .ok p.grid ∧
      p.placements.length = 2 ∧
      ∃ m d, drawn ⟨2, 1⟩ .density 1 (.ofRows [[.null, .text "low", .ofInt 4, .null]] none) =
          [.scatter m, .contour d] ∧
        m.x.map some = [some (.ofInt 4)] ∧ d.y.map some = [some (.text "low")] ∧
        d.name = "density" ∧ (m.xAxis, m.yAxis) = ("x2", "y2") := by
  have filled : pumps.series ≠ [] := nofun
  have second : Panel.axes 1 = ("x2", "y2") := by
    rw [Panel.axes, Panel.axisId, Panel.axisId, Digits.ofNat]
    rfl
  have plotted : ofTables [pumps] pumpsView 2 = .ok _ :=
    (ofTables_cons_eq_ok filled).mpr ⟨⟨1, 2⟩, ⟨2, 1⟩, rfl, rfl, by decide, rfl⟩
  obtain ⟨cs, hcs, hgrid, placed, -, each⟩ := traces_of_series filled plotted
  cases hcs
  obtain ⟨m, shown, -, -, d, shown', block⟩ := each 1 _ rfl
  refine ⟨filled, _, plotted, hgrid, placed, m, d, block, ?_⟩
  exact ⟨shown.x, shown'.y, shown'.name, shown.axes.trans second⟩

end Prepared
end CorrelationPlot
