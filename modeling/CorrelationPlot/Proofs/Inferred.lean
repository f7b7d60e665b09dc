import CorrelationPlot.Proofs.Chart.Run
import CorrelationPlot.Proofs.Csv.Grouping
import CorrelationPlot.Proofs.Prepared
import CorrelationPlot.Proofs.Script.Whole
import Mathlib.Data.List.Find

/-!
Settings that a script asks for among the columns of a table. The look-up of names on offer and the
look-up of columns agree, also where headers repeat, so data that begin with the table can only be
refused for a row that is too short; a document of separated values has none.
-/
namespace CorrelationPlot
open Outcome

namespace Offer

/-- Both traversals stop at the first header of the name and count along. -/
theorem find?_named (headers : List String) (numeric : Nat → Bool) (name : String) :
    (headers.mapIdx fun i n => Selector.named n (numeric i)).find? (·.fullName = name) =
      (headers.idxOf? name).map fun i => .named name (numeric i) := by
  induction headers generalizing numeric with
  | nil => rfl
  | cons header headers ih =>
      rw [List.mapIdx_cons, List.find?_cons, List.idxOf?_cons]
      by_cases same : header = name
      · simp [same, Selector.named]
      · have next := ih fun i => numeric (i + 1)
        simp only [Selector.named, same, decide_false, beq_iff_eq, if_false, Option.map_map]
          at next ⊢
        exact next

theorem lookUp?_ofTable (t : Table) (name : String) :
    (ofTable t).lookUp? name =
      (t.headers.idxOf? name).map fun i => .named name (t.isNumeric i) := by
  have full := find?_named t.headers t.isNumeric name
  have runtime : (ofTable t).find? (·.runtimeName = name) =
      (ofTable t).find? (·.fullName = name) := by
    refine List.find?_congr fun f mem => ?_
    obtain ⟨i, hi, rfl⟩ := List.mem_mapIdx.mp mem
    rfl
  rw [lookUp?, runtime, Option.or_self]
  exact full

theorem names_ofTable (t : Table) : (ofTable t).names = t.headers := by
  apply List.ext_getElem?
  intro i
  rw [names, List.getElem?_map, ofTable, List.getElem?_mapIdx, Option.map_map]
  exact Option.map_id_apply

end Offer

namespace Settings
open Prepared

theorem lookUp_ofTable {t : Table} {name : String} {i : Nat} (h : t.headers.idxOf? name = some i) :
    lookUp (.ofTable t) name = .ok (.named name (t.isNumeric i)) := by
  rw [lookUp, Offer.lookUp?_ofTable, h]
  rfl

theorem lookUp_ofTable_of_not_mem {t : Table} {name : String} (h : name ∉ t.headers) :
    lookUp (.ofTable t) name = .error (.unknownField name t.headers) := by
  rw [lookUp, Offer.lookUp?_ofTable, List.idxOf?_eq_none_iff.mpr h, Offer.names_ofTable]
  rfl

/-- The columns of settings are the first with the names in the script, and their traits are those
of these columns. -/
structure Resolved (script : Script) (t : Table) (settings : Settings) (cs : Columns) : Prop where
  found : Prepared.columns t settings.view = .ok cs
  x : t.headers.idxOf? script.chart.x = some cs.x
  y : t.headers.idxOf? script.chart.y = some cs.y
  xNumeric : settings.view.xField.map (·.isNumeric) = some (t.isNumeric cs.x)
  yNumeric : settings.view.yField.map (·.isNumeric) = some (t.isNumeric cs.y)

theorem column_named {headers : List String} {name : String} {i : Nat} (numeric : Bool)
    (h : headers.idxOf? name = some i) : (Selector.named name numeric).column headers = .ok i := by
  rw [Selector.column, Selector.column?, Selector.named, h]
  rfl

theorem resolved_of_mem {script : Script} {t : Table} (hx : script.chart.x ∈ t.headers)
    (hy : script.chart.y ∈ t.headers) :
    ∃ settings cs, ofScript script (.ofTable t) = .ok settings ∧ Resolved script t settings cs ∧
      settings.columns = script.columns.getD 2 := by
  obtain ⟨i, hi⟩ := Option.isSome_iff_exists.mp (List.isSome_idxOf?.mpr hx)
  obtain ⟨j, hj⟩ := Option.isSome_iff_exists.mp (List.isSome_idxOf?.mpr hy)
  obtain ⟨settings, made, x, y, columns⟩ : ∃ settings,
      ofScript script (.ofTable t) = .ok settings ∧
      settings.view.xField = some (.named script.chart.x (t.isNumeric i)) ∧
      settings.view.yField = some (.named script.chart.y (t.isNumeric j)) ∧
      settings.columns = script.columns.getD 2 := by
    rw [ofScript, lookUp_ofTable hi, lookUp_ofTable hj]
    exact ⟨_, rfl, rfl, rfl, rfl⟩
  refine ⟨settings, ⟨i, j⟩, made, ⟨?_, hi, hj, by rw [x]; rfl, by rw [y]; rfl⟩, columns⟩
  simp only [Prepared.columns, selected, bind, Except.bind, x, y, column_named _ hi,
    column_named _ hj]

theorem columns_pos {cs : List Char} {script : Script} (h : Script.Grammar.ScriptText cs script) :
    0 < (script.columns.getD 2).toNat := by
  cases columns : script.columns with
  | none => decide
  | some n =>
      apply Nat.pos_of_ne_zero
      intro zero
      apply h.columns_ne_zero
      rw [columns]
      exact congrArg some (UInt64.toNat_inj.mp zero)

theorem Resolved.reached_of_table {script : Script} {t : Table} {settings : Settings} {cs : Columns}
    (resolved : Resolved script t settings cs) {bytes : Csv.Bytes} {groupBy : Option String}
    (h : Csv.table bytes groupBy = .ok t) : ∀ s ∈ t.series, Reached cs s.rows := by
  intro s hs r hr
  rw [(Csv.regular_of_table h s hs).wide r hr]
  exact ⟨(List.idxOf?_eq_some_iff.mp resolved.x).1, (List.idxOf?_eq_some_iff.mp resolved.y).1⟩

/-- What becomes of data that begin with a table: only a short row stands in the way of a plot, and
in a table of separated values there is none. -/
structure Plots (t : Table) (cs : Columns) (c : Chart) (others : List Table) : Prop where
  accepted : (c.step (.data (t :: others))).fault = none ↔ ∀ s ∈ t.series, Reached cs s.rows
  refused : ∀ f, (c.step (.data (t :: others))).fault = some f →
    ∃ series row column width, f = .shortRow series row column width
  separated : ∀ bytes groupBy, Csv.table bytes groupBy = .ok t →
    (c.step (.data (t :: others))).fault = none ∧
      (c.step (.data (t :: others))).chart.stage =
        if (Csv.records bytes).tail = [] then .noData else .chart

theorem plots_of_resolved {script : Script} {t : Table} {settings : Settings} {cs : Columns}
    (resolved : Resolved script t settings cs) (positive : 0 < settings.columns.toNat) {c : Chart}
    (same : c.settings = settings) (others : List Table) : Plots t cs c others := by
  subst same
  obtain ⟨grid, plotted⟩ := ofTables_of_columns others positive resolved.found
  cases traces : tracesFrom cs c.settings.view.display 0 t.series with
  | error f =>
      rw [traces] at plotted
      have answer : c.step (.data (t :: others)) = _ := Chart.receive_of_error plotted
      have short : ¬ ∀ s ∈ t.series, Reached cs s.rows := by
        intro reached
        cases (tracesFrom_eq_ok.mpr ⟨reached, rfl⟩).symm.trans traces
      constructor
      · rw [answer]
        exact iff_of_false nofun short
      · rw [answer]
        rintro _ ⟨⟩
        exact shortRow_of_tracesFrom traces
      · intro bytes groupBy h
        exact absurd (resolved.reached_of_table h) short
  | ok ts =>
      rw [traces] at plotted
      have answer : c.step (.data (t :: others)) = _ := Chart.receive_of_ok plotted
      constructor
      · rw [answer]
        exact iff_of_true rfl (tracesFrom_eq_ok.mp traces).1
      · rw [answer]
        nofun
      · intro bytes groupBy h
        rw [answer]
        have empty : t.series.mapIdx (placement grid) = [] ↔ (Csv.records bytes).tail = [] :=
          List.mapIdx_eq_nil_iff.trans (Csv.series_eq_nil_of_table h)
        exact ⟨rfl, if_congr empty rfl rfl⟩

/-- A script that is accepted and names columns of a table makes settings that plot it. -/
theorem plots_of_script {text : String} {script : Script}
    (accepted : Script.ofText text = .ok script) (t : Table) :
    (script.chart.x ∉ t.headers →
      ofScript script (.ofTable t) = .error (.unknownField script.chart.x t.headers)) ∧
    (script.chart.x ∈ t.headers → script.chart.y ∉ t.headers →
      ofScript script (.ofTable t) = .error (.unknownField script.chart.y t.headers)) ∧
    (script.chart.x ∈ t.headers → script.chart.y ∈ t.headers →
      ∃ settings cs, ofScript script (.ofTable t) = .ok settings ∧
        Resolved script t settings cs ∧
        ∀ c : Chart, c.settings = settings → ∀ others, Plots t cs c others) := by
  refine ⟨?_, ?_, ?_⟩
  · intro hx
    rw [ofScript, lookUp_ofTable_of_not_mem hx]
    rfl
  · intro hx hy
    obtain ⟨i, hi⟩ := Option.isSome_iff_exists.mp (List.isSome_idxOf?.mpr hx)
    rw [ofScript, lookUp_ofTable hi, lookUp_ofTable_of_not_mem hy]
    rfl
  · intro hx hy
    obtain ⟨settings, cs, made, resolved, columns⟩ := resolved_of_mem hx hy
    refine ⟨settings, cs, made, resolved, fun c same others => ?_⟩
    apply plots_of_resolved resolved ?_ same
    rw [columns]
    exact columns_pos (Script.scriptText_of_ofText accepted)

/-- Two columns have one name, and a row ends before the second field. -/
def ragged : Table :=
  ⟨["n", "m", "n"], [.ofRows [[.ofInt 1, .text "a", .text "b"], [.ofInt 3]] none], some 2⟩

theorem ragged_plots : ∃ script settings, Script.ofText "correlation(x: n, y: m)" = .ok script ∧
    ofScript script (.ofTable ragged) = .ok settings ∧
    Prepared.columns ragged settings.view = .ok ⟨0, 1⟩ ∧
    settings.view.xField.map (·.isNumeric) = some true ∧
    ∃ series row column width, ((Chart.new settings []).step (.data [ragged])).fault =
      some (.shortRow series row column width) := by
  have accepted : Script.ofText "correlation(x: n, y: m)" =
      .ok ⟨⟨"n", "m", none⟩, none, none, none⟩ := by rfl
  obtain ⟨-, -, named⟩ := plots_of_script accepted ragged
  obtain ⟨settings, cs, made, resolved, plots⟩ := named (by decide) (by decide)
  obtain ⟨i, j⟩ := cs
  obtain rfl : 0 = i := Option.some.inj resolved.x
  obtain rfl : 1 = j := Option.some.inj resolved.y
  refine ⟨_, settings, accepted, made, resolved.found, resolved.xNumeric, ?_⟩
  have outcome := plots (.new settings []) rfl []
  cases fault : ((Chart.new settings []).step (.data [ragged])).fault with
  | none => exact absurd (outcome.accepted.mp fault) (by decide)
  | some f =>
      obtain ⟨series, row, column, width, rfl⟩ := outcome.refused f fault
      exact ⟨series, row, column, width, rfl⟩

end Settings
end CorrelationPlot
