import CorrelationPlot.Series.Table

/-!
Tables from comma-separated values. The first record names the columns; the others become rows, in
one series or in one series for each value of a chosen column.
-/
namespace CorrelationPlot.Csv

abbrev Bytes := List UInt8

abbrev Record := List Bytes

inductive Place where
  | recordStart
  | fieldStart
  | plain
  | quoted
  /-- Behind a quote inside quotes: the end of the quotes, or the first half of a written quote. -/
  | quoteSeen
  deriving DecidableEq, Repr

/-- Completed records and fields, and the bytes of the current field, each newest first. -/
structure Scan where
  place : Place
  field : Bytes
  fields : List Bytes
  records : List Record

namespace Scan

def start : Scan := ⟨.recordStart, [], [], []⟩

def quote : UInt8 := 34

def comma : UInt8 := 44

def isLineEnd (b : UInt8) : Bool := b = 10 || b = 13

def push (s : Scan) (place : Place) (b : UInt8) : Scan := { s with place, field := b :: s.field }

def endField (s : Scan) : Scan :=
  { s with place := .fieldStart, field := [], fields := s.field.reverse :: s.fields }

def endRecord (s : Scan) : Scan :=
  ⟨.recordStart, [], [], (s.field.reverse :: s.fields).reverse :: s.records⟩

def plainByte (s : Scan) (b : UInt8) : Scan :=
  if b = comma then s.endField else if isLineEnd b then s.endRecord else s.push .plain b

/-- One byte. Lines without any byte are no records, and a quote counts at the start of a field
only. -/
def step (s : Scan) (b : UInt8) : Scan :=
  match s.place with
  | .recordStart =>
    if isLineEnd b then s
    else if b = quote then { s with place := .quoted }
    else s.plainByte b
  | .fieldStart => if b = quote then { s with place := .quoted } else s.plainByte b
  | .plain => s.plainByte b
  | .quoted => if b = quote then { s with place := .quoteSeen } else s.push .quoted b
  | .quoteSeen => if b = quote then s.push .quoted b else s.plainByte b

/-- The end of the input ends a record that has begun. -/
def finish (s : Scan) : List Record :=
  match s.place with
  | .recordStart => s.records.reverse
  | _ => s.endRecord.records.reverse

end Scan

def dropMark : Bytes → Bytes
  | 0xEF :: 0xBB :: 0xBF :: rest => rest
  | bytes => bytes

/-- All records, the headers first. -/
def records (bytes : Bytes) : List Record := ((dropMark bytes).foldl Scan.step Scan.start).finish

/-- The text of a field without blanks around it, if the bytes are well-formed. -/
def fieldText? (bytes : Bytes) : Option String :=
  (String.fromUTF8? ⟨bytes.toArray⟩).map Blank.trimText

/-- The texts of a record, or its fault; a wrong width comes first. -/
def texts (width : Nat) (r : Record) : Except RecordFault (List String) :=
  if r.length ≠ width then .error (.width width r.length)
  else match r.mapM fieldText? with
    | some texts => .ok texts
    | none => .error .encoding

def allTexts (width : Nat) : Nat → List Record → Except LoadFault (List (List String))
  | _, [] => .ok []
  | number, r :: rs =>
    match texts width r with
    | .error f => .error (.record number f)
    | .ok t => (allTexts width (number + 1) rs).map (t :: ·)

/-- The headers, which are as wide as they are. -/
def headerTexts : List Record → Except LoadFault (List String)
  | [] => .ok []
  | r :: _ => (texts r.length r).mapError .headers

/-- Puts an element to the others of its key, newest first. A new key comes last. -/
def place (k : String) (a : α) : List (String × List α) → List (String × List α)
  | [] => [(k, [a])]
  | (k', as) :: gs => if k' = k then (k', a :: as) :: gs else (k', as) :: place k a gs

/-- The elements by their keys, taken one by one: the keys in the order in which they come up, each
with its elements in order. -/
def groups (key : α → String) (as : List α) : List (String × List α) :=
  (as.foldl (fun gs a => place (key a) a gs) []).map fun (k, members) => (k, members.reverse)

def row (texts : List String) : Row := texts.map Cell.ofText

def seriesBy (tags : String → Option Tags) (key : List String → String)
    (records : List (List String)) : List Series :=
  (groups key records).map fun (k, members) => .ofRows (members.map row) (tags k)

/-- How rows are split: by a column that the headers name, whose values become tags, or by nothing,
so that all rows have one key. -/
def grouping (headers : List String) :
    Option String → Except LoadFault (List (List String) → List Series)
  | none => .ok (seriesBy (fun _ => none) fun _ => "")
  | some name =>
    match headers.idxOf? name with
    | some column =>
      .ok (seriesBy (fun value => some [(name, value)]) fun texts => texts[column]?.getD "")
    | none => .error (.noGroupColumn name)

/-- The table of a document. The headers are judged first, then the grouping, then the records. -/
def table (bytes : Bytes) (groupBy : Option String) : Except LoadFault Table := do
  let all := records bytes
  let headers ← headerTexts all
  let split ← grouping headers groupBy
  let rows ← allTexts headers.length 1 all.tail
  .ok (.ofSeries headers (split rows))

end CorrelationPlot.Csv
