import CorrelationPlot.Series.Cell
import CorrelationPlot.Series.LoadFault

/-!
Tables of query results. The rows of a table are split into series, one for each combination of
tags, and all series share the headers.
-/
namespace CorrelationPlot

/-- Tag names with their values, in the order in which they were given. -/
abbrev Tags := List (String × String)

structure Series where
  total : Option Nat
  rows : List Row
  tags : Option Tags
  deriving DecidableEq

namespace Series

def ofRows (rows : List Row) (tags : Option Tags) : Series := ⟨some rows.length, rows, tags⟩

def nameOr (s : Series) (default : String) : String :=
  match s.tags with
  | some ((_, value) :: _) => value
  | _ => default

end Series

namespace Tags

/-- Gives a tag its value. A tag that is there keeps its place. -/
def set (name value : String) : Tags → Tags
  | [] => [(name, value)]
  | (n, v) :: rest => if n = name then (name, value) :: rest else (n, v) :: set name value rest

def decodeMembers (depth : Nat) (stop : Option Json.Stop) :
    List (Except Json.Fault String × Json.Written) → Tags → Except Json.Fault Tags
  | [], tags => (Json.Written.closed stop).map fun _ => tags
  | (key, w) :: members, tags => do
    let key ← key
    let value ← Json.Codec.string.decode depth w
    decodeMembers depth stop members (set key value tags)

def codec : Json.Codec Tags where
  encode tags := .object (tags.map fun (name, value) => (name, .string value))
  decode
    | 0, .object _ _ => .error .malformed
    | depth + 1, .object members stop => decodeMembers depth stop members []
    | _, w => .error (Json.Codec.unexpected w)

end Tags

structure Table where
  headers : List String
  series : List Series
  total : Option Nat
  deriving DecidableEq

namespace Table

def ofSeries (headers : List String) (series : List Series) : Table :=
  ⟨headers, series, some (series.flatMap (·.rows)).length⟩

def column? (t : Table) (name : String) : Option Nat := t.headers.idxOf? name

/-- The cells of a column; rows that end before it have none. -/
def columnCells (t : Table) (column : Nat) : List Cell :=
  t.series.flatMap fun s => s.rows.filterMap (·[column]?)

/-- A column is numeric when it holds a number and nothing but numbers and nulls. -/
def isNumeric (t : Table) (column : Nat) : Bool :=
  let cells := t.columnCells column
  cells.any Cell.isNumber && cells.all fun c => c.isNumber || c.isNull

end Table

namespace Series

def codec : Json.Codec Series :=
  Json.Record.codec
    [.withDefault "total" (.option .count) none,
      .withDefault "rows" (.list (.list Cell.codec)) [],
      .withDefault "tags" (.option Tags.codec) none]
    (fun s => (s.total, s.rows, s.tags, ()))
    (fun (total, rows, tags, ()) => ⟨total, rows, tags⟩)

end Series

namespace Table

def codec : Json.Codec Table :=
  Json.Record.codec
    [.withDefault "headers" (.list .string) [],
      .withDefault "allDataSeries" (.list Series.codec) [],
      .withDefault "total" (.option .count) none]
    (fun t => (t.headers, t.series, t.total, ()))
    (fun (headers, series, total, ()) => ⟨headers, series, total⟩)

/-- The tables of a JSON value: one object, or an array of objects. -/
def listOfJson : Json → Except LoadFault (List Table)
  | .array items =>
    match (Json.Codec.list codec).ofJson? (.array items) with
    | some tables => .ok tables
    | none => .error .notTables
  | .object members =>
    match codec.ofJson? (.object members) with
    | some t => .ok [t]
    | none => .error .notTable
  | _ => .error .scalar

/-- The tables of a JSON text. Members of objects are taken in the order of their keys, so the tags
of a series are sorted by name. -/
def listOfText (text : String) : Except LoadFault (List Table) :=
  match Json.parse text with
  | .ok j => listOfJson j.sorted
  | .error f => .error (.notJson f)

end Table
end CorrelationPlot
