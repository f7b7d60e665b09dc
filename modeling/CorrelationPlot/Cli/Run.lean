import CorrelationPlot.Chart
import CorrelationPlot.Cli.Options
import CorrelationPlot.Series.Csv
import CorrelationPlot.Sketch.Drawing
import CorrelationPlot.Text.Quoted

/-!
One run of the command line as a function of its options and the files it reads. The document is
printed before the preview is drawn, so a failing preview does not take it back.
-/
namespace CorrelationPlot.Cli

/-- What reading a file gives. A directory can be opened and not read. -/
inductive Contents where
  | missing
  | unreadable
  | bytes (b : ByteArray)

def Contents.text? : Contents → Option String
  | bytes b => String.fromUTF8? b
  | missing | unreadable => none

structure Files where
  data : Contents
  settings : Contents

/-- Reads the files that the options name; without a data file the standard input is read. -/
def gather {m : Type → Type} [Monad m] (input : m Contents) (file : String → m Contents)
    (o : Options) : m Files := do
  let data ← match o.input with
    | some path => file path
    | none => input
  let settings ← match o.source with
    | .settings path => file path
    | .script _ => pure .missing
  return { data, settings }

inductive DataFault where
  | unopened (path : String)
  | unread (path : String)
  | unreadInput
  /-- A table of separated values that broke off at its first record. -/
  | unreadHeaders
  | unusable (f : LoadFault)
  deriving DecidableEq, Repr

inductive RunFault where
  | data (cause : DataFault)
  | settingsFile (path : String)
  | settingsText (cause : Json.Fault)
  | script (f : Script.Failure)
  /-- The script names fields that are not on offer. -/
  | fields (f : PlotFault)
  | plot (cause : PlotFault)
  | preview (cause : SketchFault)
  | unwritten (path : String)
  deriving DecidableEq, Repr

def DataFault.message : DataFault → String
  | .unopened path => "Failed to open " ++ path
  | .unread path => "Failed to read " ++ path
  | .unreadInput => "Failed to read stdin"
  | .unreadHeaders => LoadFault.headersMessage
  | .unusable f => f.message

def expectedName : Script.Expected → String
  | .word => "Tag"
  | .mark => "Char"
  | .number => "Float"
  | .sense => "Verify"
  | .ending => "Eof"

def scriptMessage (f : Script.Failure) : String :=
  "Parse error: " ++ (if f.fatal then "Failure" else "Error") ++ "(Error \x7b input: " ++
    String.ofList (Quoted.quote f.rest) ++ ", code: " ++ expectedName f.expected ++ " \x7d)"

namespace RunFault

def line : RunFault → String
  | data _ => "Error: Failed to read query result"
  | settingsFile path => "Error: Failed to read widget configuration " ++ path
  | settingsText _ => "Error: " ++ Settings.faultMessage
  | script f => scriptMessage f
  | fields f => "Error: " ++ f.message
  | plot _ => "Error: Failed to build plot specification"
  | preview _ => "Error: Failed to render preview"
  | unwritten path => "Error: Failed to write preview to " ++ path

def causes : RunFault → List String
  | data cause => [cause.message]
  | plot cause => [cause.message]
  | preview cause => [cause.message]
  | settingsFile _ | settingsText _ | script _ | fields _ | unwritten _ => []

end RunFault

structure Picture where
  path : String
  format : ImageFormat
  sketch : Sketch
  deriving DecidableEq

structure Outcome where
  output : String := ""
  nonNumeric : List String := []
  picture : Option Picture := none
  fault : Option RunFault := none
  deriving DecidableEq

def Outcome.code (o : Outcome) : Nat := if o.fault.isSome then 1 else 0

def Outcome.unwritten (o : Outcome) (p : Picture) : Outcome :=
  { o with picture := none, fault := some (.unwritten p.path) }

/-- The fault of data that are not there or cannot be read. JSON is read as a whole, and separated
values record by record once the file is open. -/
def noData (o : Options) (opened : Bool) : DataFault :=
  match o.format, o.input with
  | .json, some path => .unread path
  | .json, none => .unreadInput
  | .csv, some path => if opened then .unreadHeaders else .unopened path
  | .csv, none => .unreadHeaders

def readTables (o : Options) (files : Files) : Except DataFault (List Table) :=
  match files.data with
  | .missing => .error (noData o false)
  | .unreadable => .error (noData o true)
  | .bytes bytes =>
    match o.format with
    | .csv => ((Csv.table bytes.toList o.groupBy).map fun t => [t]).mapError .unusable
    | .json =>
      match String.fromUTF8? bytes with
      | some text => (Table.listOfText text).mapError .unusable
      | none => .error (noData o true)

def readSettings (o : Options) (files : Files) (offer : Offer) : Except RunFault Settings :=
  match o.source with
  | .script text => do
    let script ← (Script.ofText text).mapError RunFault.script
    (Settings.ofScript script offer).mapError .fields
  | .settings path =>
    match files.settings.text? with
    | some text => (Settings.ofText text).mapError .settingsText
    | none => .error (.settingsFile path)

def nonNumeric (view : View) : List String :=
  ([view.xField, view.yField].filterMap id).filterMap fun f =>
    if f.isNumeric then none else some f.fullName

/-- The chart that shows the tables, pinned to the size that the settings ask for. -/
def buildChart (settings : Settings) (tables : List Table) : Except PlotFault Chart :=
  let response := ((Chart.new settings (Offer.ofTables tables)).step .loading).chart.receive tables
  match response.fault, settings.size with
  | some f, _ => .error f
  | none, some (width, height) => .ok (response.chart.run [.resize width height, .refresh])
  | none, none => .ok response.chart

def documentText (o : Options) (doc : PlotDocument) : String :=
  (if o.pretty then PlotDocument.codec.indented doc else PlotDocument.codec.text doc) ++ "\n"

/-- The picture of a document, which is 800 by 600 unless the layout pins another size. -/
def drawPicture (o : Options) (doc : PlotDocument) : Except SketchFault (Option Picture) :=
  match o.preview with
  | none => .ok none
  | some path => (Sketch.draw doc 800 600).map fun sketch => some ⟨path, o.previewFormat, sketch⟩

/-- Prints the document, then draws the picture. -/
def showDocument (o : Options) (nonNumeric : List String) (doc : PlotDocument) : Outcome :=
  let output := documentText o doc
  match drawPicture o doc with
  | .ok picture => { output, nonNumeric, picture }
  | .error f => { output, nonNumeric, fault := some (.preview f) }

def run (o : Options) (files : Files) : Outcome :=
  match readTables o files with
  | .error f => { fault := some (.data f) }
  | .ok tables =>
    match readSettings o files (Offer.ofTables tables) with
    | .error f => { fault := some f }
    | .ok settings =>
      let nonNumeric := nonNumeric settings.view
      match buildChart settings tables with
      | .error f => { nonNumeric, fault := some (.plot f) }
      | .ok chart => showDocument o nonNumeric chart.document

end CorrelationPlot.Cli
