/-!
The arguments of the command line: a script or a settings file, where the data come from, and what
is written besides the plot document.
-/
namespace CorrelationPlot.Cli

inductive DataFormat where
  | json
  | csv
  deriving DecidableEq, Repr

inductive ImageFormat where
  | png
  | svg
  deriving DecidableEq, Repr

/-- What is drawn: a script, or the settings in a file. -/
inductive Source where
  | script (text : String)
  | settings (path : String)
  deriving DecidableEq, Repr

structure Options where
  source : Source
  /-- The data file; without one the data come from the standard input. -/
  input : Option String
  format : DataFormat
  groupBy : Option String
  pretty : Bool
  preview : Option String
  previewFormat : ImageFormat
  deriving DecidableEq, Repr

inductive Key where
  | config
  | input
  | format
  | groupBy
  | preview
  | previewFormat
  deriving DecidableEq, Repr

inductive UsageFault where
  | unknown (argument : String)
  | unexpected (argument : String)
  | missingValue (key : Key)
  | invalidValue (key : Key) (value : String)
  | unneededValue (option value : String)
  | repeated (option : String)
  | noSource
  | twoSources
  deriving DecidableEq, Repr

inductive Request where
  | help
  | run (o : Options)
  deriving DecidableEq, Repr

namespace Key

def name : Key → String
  | config => "config"
  | input => "input"
  | format => "format"
  | groupBy => "group-by"
  | preview => "preview"
  | previewFormat => "preview-format"

def all : List Key := [config, input, format, groupBy, preview, previewFormat]

def ofName? (name : String) : Option Key := all.find? fun k => k.name = name

/-- Paths are not empty, and formats are known. -/
def accepts (value : String) : Key → Bool
  | config | input | preview => value ≠ ""
  | format => value = "json" || value = "csv"
  | previewFormat => value = "png" || value = "svg"
  | groupBy => true

end Key

def UsageFault.message : UsageFault → String
  | .unknown argument | .unexpected argument => "unexpected argument '" ++ argument ++ "' found"
  | .missingValue key => "a value is required for '--" ++ key.name ++ "' but none was supplied"
  | .invalidValue key value => "invalid value '" ++ value ++ "' for '--" ++ key.name ++ "'"
  | .unneededValue option value =>
    "unexpected value '" ++ value ++ "' for '--" ++ option ++ "' found; no more were expected"
  | .repeated option => "the argument '--" ++ option ++ "' cannot be used multiple times"
  | .noSource => "the following required arguments were not provided: <DSL>"
  | .twoSources => "the argument '--config' cannot be used with '[DSL]'"

structure Draft where
  values : List (Key × String) := []
  pretty : Bool := false
  script : Option String := none

namespace Draft

def value? (d : Draft) (key : Key) : Option String := d.values.lookup key

def set (d : Draft) (key : Key) (value : String) : Except UsageFault Draft :=
  if (d.value? key).isSome then .error (.repeated key.name)
  else if key.accepts value then .ok { d with values := (key, value) :: d.values }
  else .error (.invalidValue key value)

def setPretty (d : Draft) : Except UsageFault Draft :=
  if d.pretty then .error (.repeated "pretty") else .ok { d with pretty := true }

def setScript (d : Draft) (text : String) : Except UsageFault Draft :=
  match d.script with
  | some _ => .error (.unexpected text)
  | none => .ok { d with script := some text }

def finish (d : Draft) : Except UsageFault Options :=
  let withSource (source : Source) : Options :=
    { source
      input := d.value? .input
      format := if d.value? .format = some "csv" then .csv else .json
      groupBy := d.value? .groupBy
      pretty := d.pretty
      preview := d.value? .preview
      previewFormat := if d.value? .previewFormat = some "svg" then .svg else .png }
  match d.script, d.value? .config with
  | some _, some _ => .error .twoSources
  | some text, none => .ok (withSource (.script text))
  | none, some path => .ok (withSource (.settings path))
  | none, none => .error .noSource

end Draft

/-- What one argument is. A value may be attached to an option. -/
inductive Argument where
  | endOfOptions
  | help
  | pretty
  | option (key : Key) (attached : Option String)
  | positional
  | faulty (f : UsageFault)

/-- The name of an option and the value attached to it by an equals sign. -/
def splitAttached (cs : List Char) : String × Option String :=
  let name := String.ofList (cs.takeWhile (· ≠ '='))
  match cs.dropWhile (· ≠ '=') with
  | _ :: value => (name, some (String.ofList value))
  | [] => (name, none)

def longArgument (argument : String) (cs : List Char) : Argument :=
  let (name, attached) := splitAttached cs
  match Key.ofName? name, attached with
  | some key, _ => .option key attached
  | none, some value =>
    if name = "pretty" ∨ name = "help" then .faulty (.unneededValue name value)
    else .faulty (.unknown argument)
  | none, none =>
    if name = "pretty" then .pretty
    else if name = "help" then .help
    else .faulty (.unknown argument)

/-- What follows the letter of a short option is its value, with or without an equals sign. -/
def shortArgument (argument : String) (letter : Char) (cs : List Char) : Argument :=
  let attached := match cs with
    | [] => none
    | '=' :: value => some (String.ofList value)
    | value => some (String.ofList value)
  if letter = 'i' then .option .input attached
  else if letter = 'f' then .option .format attached
  else if letter = 'h' then .help
  else .faulty (.unknown argument)

def classify (argument : String) : Argument :=
  match argument.toList with
  | ['-', '-'] => .endOfOptions
  | '-' :: '-' :: cs => longArgument argument cs
  | '-' :: letter :: cs => shortArgument argument letter cs
  | _ => .positional

/-- Arguments that look like options are no values of the option before them. -/
def isValue (argument : String) : Bool :=
  match classify argument with
  | .positional => true
  | _ => false

def readPositional (d : Draft) : List String → Except UsageFault Draft
  | [] => .ok d
  | text :: rest => do readPositional (← d.setScript text) rest

/-- Reads all arguments in order. Nothing is left of them where help is asked for. -/
def readDraft (d : Draft) : List String → Except UsageFault (Option Draft)
  | [] => .ok (some d)
  | argument :: rest =>
    match classify argument with
    | .endOfOptions => (readPositional d rest).map some
    | .help => .ok none
    | .pretty => do readDraft (← d.setPretty) rest
    | .option key (some value) => do readDraft (← d.set key value) rest
    | .option key none =>
      match rest with
      | [] => .error (.missingValue key)
      | value :: rest =>
        if isValue value then do readDraft (← d.set key value) rest
        else .error (.missingValue key)
    | .positional => do readDraft (← d.setScript argument) rest
    | .faulty f => .error f

def Request.ofArguments (arguments : List String) : Except UsageFault Request := do
  match ← readDraft {} arguments with
  | none => .ok .help
  | some d => .ok (.run (← d.finish))

def help (program : String) : String :=
  "Turn tag-grouped query results into a correlation plot specification\n\n" ++
  "Usage: " ++ program ++ " [OPTIONS] [DSL]\n\n" ++
  "Arguments:\n" ++
  "  [DSL]  Chart DSL (e.g., 'correlation(x: flow, y: pressure, display: \"Density\") | " ++
  "grid(columns: 3)')\n\n" ++
  "Options:\n" ++
  "      --config <CONFIG>                  Widget configuration JSON instead of a DSL string\n" ++
  "  -i, --input <INPUT>                    Query result file (defaults to stdin)\n" ++
  "  -f, --format <FORMAT>                  [default: json] [possible values: json, csv]\n" ++
  "      --group-by <GROUP_BY>              CSV column whose values split rows into series groups\n" ++
  "      --pretty                           Pretty-print the plot specification\n" ++
  "      --preview <PREVIEW>                Also render a preview image to this path\n" ++
  "      --preview-format <PREVIEW_FORMAT>  [default: png] [possible values: png, svg]\n" ++
  "  -h, --help                             Print help\n"

end CorrelationPlot.Cli
