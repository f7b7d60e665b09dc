import CorrelationPlot.Proofs.Chart.Run
import CorrelationPlot.Proofs.Prepared
import CorrelationPlot.Proofs.Trace

/-!
Plot documents as text. A document of numbers that have a text comes back from it as it was,
although the text names neither the kind of a trace nor the kind of a cell: traces are told by their
shape, and the kinds of cells are those of JSON.
-/
namespace CorrelationPlot
open Json Outcome

section
variable {A : Arrangement}

theorem Layout.restores_grid {g : Grid × String} (rows : g.1.rows < UInt64.size)
    (columns : g.1.columns < UInt64.size) : Layout.gridCodec.Restores A g :=
  Record.restores_codec (by decide)
    ⟨Codec.restores_count rows, Codec.restores_count columns, Codec.restores_string _, trivial⟩ rfl

theorem Layout.restores_textIn (name s : String) : (Layout.textIn name).Restores A s :=
  Record.restores_codec (List.nodup_singleton _) ⟨Codec.restores_string _, trivial⟩ rfl

theorem Layout.restores_axisTitle (s : String) : Layout.axisTitle.Restores A s :=
  Record.restores_codec (List.nodup_singleton _) ⟨Layout.restores_textIn _ _, trivial⟩ rfl

theorem Layout.restores {l : Layout} (rows : l.grid.rows < UInt64.size)
    (columns : l.grid.columns < UInt64.size) : Layout.codec.Restores A l := by
  have pixels (name : String) (n : Option UInt32) : (Field.omitted name .word32).Fits A n :=
    Record.fits_omitted name ((Codec.refusesNull_natBelow _).imap _ _) fun n _ =>
      Codec.restores_word32 n
  exact Record.restores_codec (by decide)
    ⟨Layout.restores_grid rows columns, Layout.restores_axisTitle _, Layout.restores_axisTitle _,
      Layout.restores_textIn _ _, Codec.restores_bool _, Codec.restores_string _,
      Codec.restores_string _, pixels _ _, pixels _ _, trivial⟩ rfl

theorem RenderSwitches.restores (r : RenderSwitches) : RenderSwitches.codec.Restores A r :=
  Record.restores_codec (by decide)
    ⟨Codec.restores_list fun _ _ => Codec.restores_string _, Codec.restores_bool _,
      Codec.restores_bool _, Codec.restores_bool _, trivial⟩ rfl

end

namespace PlotDocument

/-- Every number of the document has a text: the opacities are finite and the grid is counted with
64 bits. -/
structure Writable (p : PlotDocument) : Prop where
  traces : ∀ t ∈ p.traces, t.Finite
  rows : p.layout.grid.rows < UInt64.size
  columns : p.layout.grid.columns < UInt64.size

theorem restores {p : PlotDocument} (h : p.Writable) : codec.Restores .asWritten p :=
  Record.restores_codec (by decide)
    ⟨Codec.restores_list fun t ht => Trace.restores (h.traces t ht),
      Layout.restores h.rows h.columns, p.switches.restores, trivial⟩ rfl

theorem nesting_codec (p : PlotDocument) : (codec.encode p).nesting ≤ maxDepth := by
  have traces : (Codec.list Trace.codec).Within 4 :=
    Codec.Within.list fun t => t.nesting_toJson.trans (by decide)
  have grid : Layout.gridCodec.Within 3 := Codec.within_record
    (by simp [Field.required, Codec.within_count, Codec.within_string]) _ _
  have textIn (name : String) (n : Nat) : (Layout.textIn name).Within (n + 1) :=
    Codec.within_record (by simp [Field.required, Codec.within_string]) _ _
  have title : Layout.axisTitle.Within 3 :=
    Codec.within_record (by simp [Field.required, textIn]) _ _
  have layout : Layout.codec.Within 4 := Codec.within_record
    (by simp [Field.required, Field.omitted, grid, title, textIn, Codec.within_bool,
      Codec.within_string, (Codec.within_word32 _).option]) _ _
  have switches : RenderSwitches.codec.Within 4 := Codec.within_record
    (by simp [Field.required, (Codec.within_string _).list, Codec.within_bool]) _ _
  have document : codec.Within 5 := Codec.within_record
    (by simp [Field.required, traces, layout, switches]) _ _
  exact (document p).trans (by decide)

end PlotDocument

theorem Display.finite_markerStyle (d : Display) : Binary64.isFinite d.markerStyle.2 := by
  rw [markerStyle]
  split <;> decide

theorem Prepared.finite_ofTables {tables : List Table} {view : View} {fixed : Nat} {p : Prepared}
    (h : ofTables tables view fixed = .ok p) : ∀ t ∈ p.traces, t.Finite := by
  rcases ofTables_eq_ok h with ⟨-, grid, -, rfl⟩ | ⟨t, others, grid, cs, -, -, -, -, -, rfl⟩
  · nofun
  · intro trace ht
    obtain ⟨block, hblock, ht⟩ := List.mem_flatten.mp ht
    obtain ⟨i, hi, rfl⟩ := List.mem_mapIdx.mp hblock
    rw [drawn] at ht
    rcases List.mem_cons.mp ht with rfl | ht
    · exact view.display.finite_markerStyle
    · split at ht
      · rw [List.mem_singleton.mp ht]
        trivial
      · cases ht

theorem Grid.forSeries_lt {n columns : Nat} {g : Grid} (h : forSeries n columns = .ok g)
    (rows : n < UInt64.size) (wide : columns < UInt64.size) :
    g.rows < UInt64.size ∧ g.columns < UInt64.size := by
  obtain ⟨positive, rfl⟩ := forSeries_eq_ok.mp h
  have less : n + columns - 1 < columns * (n + 1) := by
    have := Nat.le_mul_of_pos_left n positive
    rw [Nat.mul_succ]
    omega
  refine ⟨(Nat.lt_succ_iff.mp (Nat.div_lt_of_lt_mul less)).trans_lt rows, ?_⟩
  dsimp only
  split
  · decide
  · exact wide

theorem Prepared.grid_lt {tables : List Table} {view : View} {fixed : Nat} {p : Prepared}
    (h : ofTables tables view fixed = .ok p) (rows : ∀ t ∈ tables, t.series.length < UInt64.size)
    (wide : fixed < UInt64.size) : p.grid.rows < UInt64.size ∧ p.grid.columns < UInt64.size := by
  obtain ⟨-, grid, hgrid, rfl⟩ | ⟨t, others, grid, cs, rfl, -, hgrid, -, -, rfl⟩ :=
    ofTables_eq_ok h
  · exact Grid.forSeries_lt hgrid (by decide) wide
  · exact Grid.forSeries_lt hgrid (rows t List.mem_cons_self) wide

namespace Chart

/-- The document can be written, also after the grid has been copied into it. -/
structure Writable (c : Chart) : Prop where
  document : c.document.Writable
  grid : c.grid.rows < UInt64.size ∧ c.grid.columns < UInt64.size

/-- Tables whose series are counted with 64 bits. -/
def Event.Counted : Event → Prop
  | .data tables => ∀ t ∈ tables, t.series.length < UInt64.size
  | _ => True

theorem writable_new (settings : Settings) (offer : Offer) : Writable (new settings offer) where
  document := ⟨nofun, show 2 < UInt64.size by decide, show 2 < UInt64.size by decide⟩
  grid := ⟨show 2 < UInt64.size by decide, settings.columns.toNat_lt⟩

theorem writable_step (c : Chart) (e : Event) (counted : e.Counted) (h : Writable c) :
    Writable (c.step e).chart := by
  cases e with
  | data tables =>
      cases hp : c.prepare tables with
      | error f => rwa [step, receive_of_error hp]
      | ok p =>
          rw [step, receive_of_ok hp]
          have grid := Prepared.grid_lt hp counted c.settings.columns.toNat_lt
          exact ⟨⟨Prepared.finite_ofTables hp, grid.1, grid.2⟩, grid⟩
  | refresh => exact ⟨⟨h.document.traces, h.grid.1, h.grid.2⟩, h.grid⟩
  | loading | resize width height | fields added removed =>
      exact ⟨⟨h.document.traces, h.document.rows, h.document.columns⟩, h.grid⟩

theorem writable_run (settings : Settings) (offer : Offer) {events : List Event}
    (counted : ∀ e ∈ events, e.Counted) : Writable ((new settings offer).run events) :=
  run_preserves_of writable_step (writable_new settings offer) counted

end Chart

theorem Layout.grid_of_decode {depth : Nat} {w : Written} {l : Layout}
    (h : codec.decode depth w = .ok l) :
    l.grid.rows < UInt64.size ∧ l.grid.columns < UInt64.size := by
  obtain ⟨⟨grid, rest⟩, values, rfl⟩ := map_eq_ok.mp h
  obtain ⟨below, -, given, missing, -⟩ := Record.found_of_decode (by decide) values
  obtain ⟨v, read⟩ := Record.decoded_of_found given missing
  obtain ⟨⟨rows, columns, pattern, _⟩, inner, rfl⟩ := map_eq_ok.mp read
  obtain ⟨below, -, given, missing, given', missing', -⟩ :=
    Record.found_of_decode (by decide) inner
  obtain ⟨_, hrows⟩ := Record.decoded_of_found given missing
  obtain ⟨_, hcolumns⟩ := Record.decoded_of_found given' missing'
  exact ⟨Codec.lt_of_natBelow hrows, Codec.lt_of_natBelow hcolumns⟩

theorem PlotDocument.writable_of_ofText {text : String} {p : PlotDocument}
    (h : codec.ofText text = .ok p) : p.Writable := by
  obtain ⟨⟨traces, layout, switches, _⟩, values, rfl⟩ := map_eq_ok.mp (Codec.decode_of_ofText h)
  obtain ⟨below, -, given, missing, given', missing', -⟩ :=
    Record.found_of_decode (by decide) values
  obtain ⟨data, hdata⟩ := Record.decoded_of_found given missing
  obtain ⟨w, hlayout⟩ := Record.decoded_of_found given' missing'
  have grid := Layout.grid_of_decode hlayout
  refine ⟨fun t ht => ?_, grid.1, grid.2⟩
  obtain ⟨_, _, read⟩ := Codec.decoded_of_mem hdata ht
  exact Trace.finite_of_decode read

namespace PlotDocument

/-- Documents of writable numbers come back from their text, compact or indented. The documents of
all states that a chart can reach are such, and so are all that were read from a text. -/
theorem text_restores_document {p : PlotDocument}
    (h : p.Writable ∨ (∃ settings offer events, (∀ e ∈ events, e.Counted) ∧
      p = ((Chart.new settings offer).run events).document) ∨ ∃ text, codec.ofText text = .ok p) :
    p.Writable ∧ codec.ofText (codec.text p) = .ok p ∧
      codec.ofText (codec.indented p) = .ok p := by
  have writable : p.Writable := by
    rcases h with writable | ⟨settings, offer, events, counted, rfl⟩ | ⟨text, read⟩
    · exact writable
    · exact (Chart.writable_run settings offer counted).document
    · exact writable_of_ofText read
  have restored := restores writable
  exact ⟨writable, Codec.ofText_text p.nesting_codec restored,
    Codec.ofText_indented p.nesting_codec restored⟩

/-- The document of a chart that shows the pumps and was resized. -/
def pumps : PlotDocument :=
  ((Chart.new { view := Prepared.pumpsView } []).run
    [.data [Prepared.pumps], .resize 640 480]).document

theorem pumps_restored : pumps.traces ≠ [] ∧ pumps.layout.width = some 640 ∧
    codec.ofText (codec.text pumps) = .ok pumps ∧
    codec.ofText (codec.indented pumps) = .ok pumps := by
  have counted : ∀ e ∈ [Chart.Event.data [Prepared.pumps], .resize 640 480], e.Counted := by
    simp only [List.forall_mem_cons, Chart.Event.Counted]
    exact ⟨⟨by decide, nofun⟩, trivial, nofun⟩
  obtain ⟨-, compact, indented⟩ := text_restores_document
    (.inr (.inl ⟨{ view := Prepared.pumpsView }, [], _, counted, rfl⟩))
  exact ⟨by decide, by decide, compact, indented⟩

end PlotDocument
end CorrelationPlot
