import CorrelationPlot.Proofs.Cli.Arguments
import CorrelationPlot.Proofs.Csv.Exchange
import CorrelationPlot.Proofs.Document
import CorrelationPlot.Proofs.Settings

/-!
The options that say what is written besides the plot. A run makes its document from the other
options and the files that they name, prints it, and only then draws the preview. So the preview
can change neither the document nor what was printed, and the look of the text changes nothing but
that text.
-/
namespace CorrelationPlot

namespace PlotDocument

/-- Either look of the text of a document is read like the value that it shows. -/
theorem ofText_documentText (o : Cli.Options) (doc : PlotDocument) :
    codec.ofText (Cli.documentText o doc) =
      codec.decode Json.maxDepth (Json.Written.ofJson (codec.encode doc)) := by
  rw [Cli.documentText, Json.Codec.ofText]
  split
  · rw [Json.Codec.indented, Json.indentedText, ← Json.spaced_lines 0, Json.ofText_line,
      Json.read_sound]
  · rw [Json.Codec.text, Json.compactText, ← Json.spaced_none 0, Json.ofText_line, Json.read_sound]

theorem documentText_restores (o : Cli.Options) {doc : PlotDocument} (h : doc.Writable) :
    codec.ofText (Cli.documentText o doc) = .ok doc := by
  rw [ofText_documentText]
  exact restores h Json.maxDepth doc.nesting_codec

end PlotDocument

namespace Cli

/-- A way to draw documents, which may fail for reasons of its own. -/
abbrev Drawing := ImageFormat → PlotDocument → Except SketchFault Sketch

/-- The document of a run and the fields that it warns about, or how the run ends without one. -/
def compose (o : Options) (files : Files) : Except Outcome (List String × PlotDocument) :=
  match readTables o files with
  | .error f => .error { fault := some (.data f) }
  | .ok tables =>
    match readSettings o files (Offer.ofTables tables) with
    | .error f => .error { fault := some f }
    | .ok settings =>
      let nonNumeric := nonNumeric settings.view
      match buildChart settings tables with
      | .error f => .error { nonNumeric, fault := some (.plot f) }
      | .ok chart => .ok (nonNumeric, chart.document)

/-- Prints a document, then draws it if a preview is asked for. -/
def present (draw : Drawing) (o : Options) (nonNumeric : List String) (doc : PlotDocument) :
    Outcome :=
  let output := documentText o doc
  match o.preview with
  | none => { output, nonNumeric }
  | some path =>
    match draw o.previewFormat doc with
    | .ok sketch => { output, nonNumeric, picture := some ⟨path, o.previewFormat, sketch⟩ }
    | .error f => { output, nonNumeric, fault := some (.preview f) }

/-- A run with any way to draw. -/
def runBy (draw : Drawing) (o : Options) (files : Files) : Outcome :=
  match compose o files with
  | .error outcome => outcome
  | .ok (nonNumeric, doc) => present draw o nonNumeric doc

def sketching : Drawing := fun _ doc => Sketch.draw doc 800 600

theorem showDocument_eq_present (o : Options) (nonNumeric : List String) (doc : PlotDocument) :
    showDocument o nonNumeric doc = present sketching o nonNumeric doc := by
  rw [showDocument, present, drawPicture, sketching]
  cases o.preview with
  | none => rfl
  | some path => cases Sketch.draw doc 800 600 <;> rfl

theorem run_eq_runBy (o : Options) (files : Files) : run o files = runBy sketching o files := by
  rw [run, runBy, compose]
  cases readTables o files with
  | error f => rfl
  | ok tables =>
      dsimp only
      cases readSettings o files (Offer.ofTables tables) with
      | error f => rfl
      | ok settings =>
          dsimp only
          cases buildChart settings tables with
          | error f => rfl
          | ok chart => exact showDocument_eq_present o _ _

section Present
variable {draw : Drawing} {o : Options} {nonNumeric : List String} {doc : PlotDocument}

theorem present_printed :
    (present draw o nonNumeric doc).output = documentText o doc ∧
      (present draw o nonNumeric doc).nonNumeric = nonNumeric := by
  rw [present]
  split
  · exact ⟨rfl, rfl⟩
  · split <;> exact ⟨rfl, rfl⟩

theorem present_of_none (none : o.preview = none) :
    present draw o nonNumeric doc = { output := documentText o doc, nonNumeric } := by
  rw [present, none]

theorem present_of_ok {path : String} {sketch : Sketch} (asked : o.preview = some path)
    (drawn : draw o.previewFormat doc = .ok sketch) :
    present draw o nonNumeric doc =
      { output := documentText o doc, nonNumeric
        picture := some ⟨path, o.previewFormat, sketch⟩ } := by
  rw [present, asked]
  simp only [drawn]

theorem present_of_error {path : String} {f : SketchFault} (asked : o.preview = some path)
    (fails : draw o.previewFormat doc = .error f) :
    present draw o nonNumeric doc =
      { output := documentText o doc, nonNumeric, fault := some (.preview f) } := by
  rw [present, asked]
  simp only [fails]

theorem present_pretty (pretty : Bool) :
    present draw { o with pretty } nonNumeric doc =
      { present draw o nonNumeric doc with output := documentText { o with pretty } doc } := by
  obtain ⟨source, input, format, groupBy, _, preview, previewFormat⟩ := o
  cases preview with
  | none => rfl
  | some path =>
      simp only [present]
      cases draw previewFormat doc <;> rfl

end Present

/-- A run without a document ends with a fault and prints nothing. -/
theorem compose_error {o : Options} {files : Files} {r : Outcome}
    (h : compose o files = .error r) : r.output = "" ∧ r.picture = none ∧ r.code = 1 := by
  rw [compose] at h
  split at h
  · cases h
    exact ⟨rfl, rfl, rfl⟩
  · split at h
    · cases h
      exact ⟨rfl, rfl, rfl⟩
    · dsimp only at h
      split at h
      · cases h
        exact ⟨rfl, rfl, rfl⟩
      · cases h

section Run
variable {draw : Drawing} {o : Options} {files : Files}

theorem runBy_of_error {r : Outcome} (h : compose o files = .error r) :
    runBy draw o files = r := by
  rw [runBy, h]

theorem runBy_of_ok {nonNumeric : List String} {doc : PlotDocument}
    (h : compose o files = .ok (nonNumeric, doc)) :
    runBy draw o files = present draw o nonNumeric doc := by
  rw [runBy, h]

end Run

/-- The chart of a run has the history of a chart in use. -/
theorem buildChart_eq_ok {settings : Settings} {tables : List Table} {c : Chart}
    (h : buildChart settings tables = .ok c) :
    ∃ rest : List Chart.Event,
      (∀ e ∈ rest, e.Counted) ∧
      c = (Chart.new settings (Offer.ofTables tables)).run (.loading :: .data tables :: rest) := by
  let response := ((Chart.new settings (Offer.ofTables tables)).step .loading).chart.receive tables
  rw [buildChart] at h
  cases fault : response.fault with
  | some f =>
      rw [fault] at h
      cases h
  | none =>
      rw [fault] at h
      cases size : settings.size with
      | none =>
          rw [size] at h
          cases h
          exact ⟨[], nofun, rfl⟩
      | some pixels =>
          rw [size] at h
          cases h
          refine ⟨[.resize pixels.1 pixels.2, .refresh], ?_, rfl⟩
          simp [Chart.Event.Counted]

/-- The series of the tables that are read are counted with 64 bits, as lists in memory are. -/
def Countable (o : Options) (files : Files) : Prop :=
  ∀ tables, readTables o files = .ok tables → ∀ t ∈ tables, t.series.length < UInt64.size

theorem writable_of_compose {o : Options} {files : Files} {nonNumeric : List String}
    {doc : PlotDocument} (h : compose o files = .ok (nonNumeric, doc))
    (countable : Countable o files) : doc.Writable := by
  rw [compose] at h
  split at h
  · cases h
  · next tables read =>
    split at h
    · cases h
    · next settings _ =>
      dsimp only at h
      split at h
      · cases h
      · next chart built =>
        cases h
        obtain ⟨rest, counted, rfl⟩ := buildChart_eq_ok built
        have all : ∀ e ∈ Chart.Event.loading :: .data tables :: rest, e.Counted :=
          List.forall_mem_cons.mpr
            ⟨trivial, List.forall_mem_cons.mpr ⟨countable tables read, counted⟩⟩
        exact (Chart.writable_run settings _ all).document

section Among
variable (draw : Drawing) (input : Contents) (file : String → Contents)

/-- A run that finds this standard input and these files. -/
def runAmong (o : Options) : Outcome := runBy draw o (gather (m := Id) input file o)

variable {draw input file}

theorem runAmong_preview (o : Options) (preview : Option String) (previewFormat : ImageFormat) :
    let r := runAmong draw input file o
    let r' := runAmong draw input file { o with preview, previewFormat }
    r'.output = r.output ∧ r'.nonNumeric = r.nonNumeric ∧
      (preview = none → r.code = 0 → r'.code = 0) := by
  intro r r'
  cases made : compose o (gather (m := Id) input file o) with
  | error outcome =>
      have same : r = outcome := runBy_of_error made
      have same' : r' = outcome := runBy_of_error made
      rw [same, same']
      exact ⟨rfl, rfl, fun _ => id⟩
  | ok plot =>
      obtain ⟨warned, doc⟩ := plot
      have shown : r = present draw o warned doc := runBy_of_ok made
      -- Neither the files nor the document are made from these options.
      have shown' : r' = present draw { o with preview, previewFormat } warned doc :=
        runBy_of_ok made
      have output : r'.output = documentText o doc := shown' ▸ present_printed.1
      have nonNumeric : r'.nonNumeric = warned := shown' ▸ present_printed.2
      rw [output, nonNumeric, shown, present_printed.1, present_printed.2]
      refine ⟨rfl, rfl, fun none _ => ?_⟩
      rw [shown', present_of_none none]
      rfl

theorem runAmong_pretty (o : Options) (pretty : Bool) :
    let r := runAmong draw input file o
    let r' := runAmong draw input file { o with pretty }
    r' = { r with output := r'.output } ∧
      PlotDocument.codec.ofText r'.output = PlotDocument.codec.ofText r.output := by
  intro r r'
  cases made : compose o (gather (m := Id) input file o) with
  | error outcome =>
      have same : r = outcome := runBy_of_error made
      have same' : r' = outcome := runBy_of_error made
      rw [same, same']
      exact ⟨rfl, rfl⟩
  | ok plot =>
      obtain ⟨warned, doc⟩ := plot
      have shown : r = present draw o warned doc := runBy_of_ok made
      -- Neither the files nor the document are made from this option.
      have shown' : r' = present draw { o with pretty } warned doc := runBy_of_ok made
      rw [shown, shown', present_pretty]
      refine ⟨rfl, ?_⟩
      rw [present_printed.1, PlotDocument.ofText_documentText, PlotDocument.ofText_documentText]

end Among

/-- The options for the preview and for the look of the text do not reach the plot. Lists of
arguments that differ in the preview alone print the same, and a run that ends well does so without
its preview. If the preview cannot be drawn, the whole document has been printed and no picture is
written. Lists that differ in the look alone do the same but for the text, which is read as the same
document. -/
theorem output_options_apart (draw : Drawing) (input : Contents) (file : String → Contents)
    {args : List String} {o : Options} (accepted : Request.ofArguments args = .ok (.run o)) :
    let files := gather (m := Id) input file o
    let r := runAmong draw input file o
    (∀ args' o', Request.ofArguments args' = .ok (.run o') → SameBut Phrase.isPreview args args' →
      let r' := runAmong draw input file o'
      r'.output = r.output ∧ r'.nonNumeric = r.nonNumeric ∧
        (o'.preview = none → r.code = 0 → r'.code = 0)) ∧
    (∀ args' o', Request.ofArguments args' = .ok (.run o') → SameBut Phrase.isPretty args args' →
      let r' := runAmong draw input file o'
      r' = { r with output := r'.output } ∧
        PlotDocument.codec.ofText r'.output = PlotDocument.codec.ofText r.output) ∧
    (∀ nonNumeric doc, compose o files = .ok (nonNumeric, doc) →
      r.output = documentText o doc ∧
      (Countable o files → PlotDocument.codec.ofText r.output = .ok doc) ∧
      ∀ path f, o.preview = some path → draw o.previewFormat doc = .error f →
        r.fault = some (.preview f) ∧ r.code = 1 ∧ r.picture = none) ∧
    (∀ ended, compose o files = .error ended →
      r = ended ∧ r.output = "" ∧ r.picture = none ∧ r.code = 1) ∧
    runAmong sketching input file o = run o files := by
  intro files r
  refine ⟨?_, ?_, ?_, ?_, (run_eq_runBy o files).symm⟩
  · intro args' o' accepted' same
    rw [options_beside_preview accepted accepted' same]
    exact runAmong_preview o o'.preview o'.previewFormat
  · intro args' o' accepted' same
    rw [options_beside_pretty accepted accepted' same]
    exact runAmong_pretty o o'.pretty
  · intro nonNumeric doc made
    have shown : r = present draw o nonNumeric doc := runBy_of_ok made
    have output : r.output = documentText o doc := shown ▸ present_printed.1
    refine ⟨output, fun countable => ?_, fun path f asked fails => ?_⟩
    · rw [output]
      exact PlotDocument.documentText_restores o (writable_of_compose made countable)
    · rw [shown, present_of_error asked fails]
      exact ⟨rfl, rfl, rfl⟩
  · intro ended made
    have same : r = ended := runBy_of_error made
    exact ⟨same, same ▸ compose_error made⟩

/-- The pumps, in a chart of a given size. -/
def pumpsSettings (width height : UInt32) : Settings :=
  { view := Prepared.pumpsView, size := some (width, height) }

def pumpsInput : Contents := .bytes (Table.codec.text Prepared.pumps).toUTF8

/-- Two files with settings: one chart has no width, the other can be drawn. -/
def pumpsFile (path : String) : Contents :=
  if path = "flat.json" then .bytes (Settings.codec.text (pumpsSettings 0 600)).toUTF8
  else if path = "fair.json" then .bytes (Settings.codec.text (pumpsSettings 640 480)).toUTF8
  else .missing

def pumpsDocument (width height : UInt32) : PlotDocument :=
  ((Chart.new (pumpsSettings width height) (Offer.ofTables [Prepared.pumps])).run
    [.loading, .data [Prepared.pumps], .resize width height, .refresh]).document

theorem storable_pumps : Prepared.pumps.Storable where
  series := by
    rw [Prepared.pumps]
    simp only [List.forall_mem_cons]
    refine ⟨⟨?_, ?_⟩, ⟨?_, nofun⟩, nofun⟩
    all_goals
      rintro _ ⟨⟩
      decide
  total := by
    rintro _ ⟨⟩
    decide

theorem gather_data {input : Contents} {file : String → Contents} {o : Options}
    (standard : o.input = none) : (gather (m := Id) input file o).data = input := by
  rw [gather, standard]
  cases o.source <;> rfl

theorem gather_settings {input : Contents} {file : String → Contents} {o : Options} {path : String}
    (source : o.source = .settings path) :
    (gather (m := Id) input file o).settings = file path := by
  rw [gather, source]
  cases o.input <;> rfl

theorem fromUTF8?_toUTF8 (text : String) : String.fromUTF8? text.toUTF8 = some text :=
  dif_pos (String.isValidUTF8 _)

theorem readTables_pumps {o : Options} (input : o.input = none) (format : o.format = .json) :
    readTables o (gather (m := Id) pumpsInput pumpsFile o) = .ok [Prepared.pumps] := by
  simp only [readTables, gather_data input, pumpsInput, format, fromUTF8?_toUTF8,
    (Table.listOfText_text storable_pumps).1]
  rfl

theorem compose_pumps {o : Options} {path : String} {width height : UInt32}
    (input : o.input = none) (format : o.format = .json) (source : o.source = .settings path)
    (file : pumpsFile path = .bytes (Settings.codec.text (pumpsSettings width height)).toUTF8) :
    compose o (gather (m := Id) pumpsInput pumpsFile o) = .ok ([], pumpsDocument width height) := by
  have restored : Settings.ofText (Settings.codec.text (pumpsSettings width height)) =
      .ok (pumpsSettings width height) :=
    Json.Codec.ofText_text (Settings.nesting_codec _) (Settings.restores rfl)
  have settings : readSettings o (gather (m := Id) pumpsInput pumpsFile o)
      (Offer.ofTables [Prepared.pumps]) = .ok (pumpsSettings width height) := by
    simp only [readSettings, source, gather_settings source, file, Contents.text?,
      fromUTF8?_toUTF8, restored]
    rfl
  simp only [compose, readTables_pumps input format, settings]
  rfl

/-- The options that take the settings of the pumps from a file and their data from the input. -/
def pumpsOptions (path : String) (pretty : Bool) (preview : Option String) : Options :=
  ⟨.settings path, none, .json, none, pretty, preview, .png⟩

def flatPumps (pretty : Bool) (preview : Option String) : Options :=
  pumpsOptions "flat.json" pretty preview

def fairPumps (preview : Option String) : Options := pumpsOptions "fair.json" false preview

def pumpsRun (o : Options) : Outcome := runAmong sketching pumpsInput pumpsFile o

/-- The flat chart is printed whole, with a preview that fails, without one, and in the other look.
The run that draws the fair chart ends as well as the run that does not. -/
theorem pumps_printed_whole :
    (Request.ofArguments ["--config", "flat.json", "--preview", "flat.png"] =
        .ok (.run (flatPumps false (some "flat.png"))) ∧
      (pumpsRun (flatPumps false (some "flat.png"))).code = 1 ∧
      (pumpsRun (flatPumps false (some "flat.png"))).picture = none ∧
      PlotDocument.codec.ofText (pumpsRun (flatPumps false (some "flat.png"))).output =
        .ok (pumpsDocument 0 600)) ∧
    (Request.ofArguments ["--config=flat.json"] = .ok (.run (flatPumps false none)) ∧
      SameBut Phrase.isPreview ["--config", "flat.json", "--preview", "flat.png"]
        ["--config=flat.json"] ∧
      (pumpsRun (flatPumps false none)).output =
        (pumpsRun (flatPumps false (some "flat.png"))).output) ∧
    (Request.ofArguments ["--pretty", "--config=flat.json", "--preview", "flat.png"] =
        .ok (.run (flatPumps true (some "flat.png"))) ∧
      SameBut Phrase.isPretty ["--config", "flat.json", "--preview", "flat.png"]
        ["--pretty", "--config=flat.json", "--preview", "flat.png"] ∧
      PlotDocument.codec.ofText (pumpsRun (flatPumps true (some "flat.png"))).output =
        PlotDocument.codec.ofText (pumpsRun (flatPumps false (some "flat.png"))).output) ∧
    Request.ofArguments ["--preview=fair.png", "--config", "fair.json"] =
        .ok (.run (fairPumps (some "fair.png"))) ∧
      (pumpsRun (fairPumps (some "fair.png"))).code = 0 ∧ (pumpsRun (fairPumps none)).code = 0 := by
  have accepted : Request.ofArguments ["--config", "flat.json", "--preview", "flat.png"] =
      .ok (.run (flatPumps false (some "flat.png"))) := rfl
  have bare : Request.ofArguments ["--config=flat.json"] = .ok (.run (flatPumps false none)) := rfl
  have pretty : Request.ofArguments ["--pretty", "--config=flat.json", "--preview", "flat.png"] =
      .ok (.run (flatPumps true (some "flat.png"))) := rfl
  have sameBare : SameBut Phrase.isPreview ["--config", "flat.json", "--preview", "flat.png"]
      ["--config=flat.json"] := by decide
  have sameLook : SameBut Phrase.isPretty ["--config", "flat.json", "--preview", "flat.png"]
      ["--pretty", "--config=flat.json", "--preview", "flat.png"] := by decide
  have made : compose (flatPumps false (some "flat.png")) _ = .ok ([], pumpsDocument 0 600) :=
    compose_pumps rfl rfl rfl rfl
  have fails : sketching .png (pumpsDocument 0 600) = .error (.empty 0 600) := rfl
  have countable : Countable (flatPumps false (some "flat.png"))
      (gather (m := Id) pumpsInput pumpsFile (flatPumps false (some "flat.png"))) := by
    intro tables read
    cases (readTables_pumps rfl rfl).symm.trans read
    decide
  obtain ⟨preview, look, whole, -⟩ :=
    output_options_apart sketching pumpsInput pumpsFile accepted
  obtain ⟨-, read, refused⟩ := whole _ _ made
  obtain ⟨-, code, picture⟩ := refused _ _ rfl fails
  refine ⟨⟨accepted, code, picture, read countable⟩,
    ⟨bare, sameBare, (preview _ _ bare sameBare).1⟩,
    ⟨pretty, sameLook, (look _ _ pretty sameLook).2⟩, ?_⟩
  have accepted' : Request.ofArguments ["--preview=fair.png", "--config", "fair.json"] =
      .ok (.run (fairPumps (some "fair.png"))) := rfl
  have bare' : Request.ofArguments ["--config=fair.json"] = .ok (.run (fairPumps none)) := rfl
  have sameBare' : SameBut Phrase.isPreview ["--preview=fair.png", "--config", "fair.json"]
      ["--config=fair.json"] := by decide
  have made' : compose (fairPumps (some "fair.png")) _ = .ok ([], pumpsDocument 640 480) :=
    compose_pumps rfl rfl rfl rfl
  have ends : (pumpsRun (fairPumps (some "fair.png"))).code = 0 := by
    rw [pumpsRun, runAmong, runBy_of_ok made', present_of_ok rfl rfl]
    rfl
  obtain ⟨preview', -⟩ := output_options_apart sketching pumpsInput pumpsFile accepted'
  exact ⟨accepted', ends, (preview' _ _ bare' sameBare').2.2 rfl ends⟩

end Cli
end CorrelationPlot
