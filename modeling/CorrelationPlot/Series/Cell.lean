import CorrelationPlot.Json.Codec
import CorrelationPlot.Text.Characters

/-!
Cells of a table. Cells read from JSON keep their kind; cells read from text get the first kind that
the text can be: nothing, a truth value, an integer, a number, or text.
-/
namespace CorrelationPlot

inductive Cell where
  | null
  | bool (b : Bool)
  | number (n : Json.Number)
  | text (s : String)
  deriving DecidableEq

abbrev Row := List Cell

namespace Cell

def isNull : Cell → Bool
  | null => true
  | _ => false

def isNumber : Cell → Bool
  | number _ => true
  | _ => false

def toFloat? : Cell → Option Float
  | number n => some n.toFloat
  | _ => none

def ofFloat (x : Float) : Cell := ((Json.Number.ofFloat? x).map number).getD null

def ofInt (i : Int) : Cell := ((Json.Number.ofInt? i).map number).getD null

/-- Digits behind an optional sign, as a signed integer of 64 bits. -/
def int? (cs : List Char) : Option Json.Number :=
  let (negative, ds) := Literal.readSign cs
  if ds ≠ [] ∧ ds.all Digits.isDigit then
    let i : Int := if negative then -(Digits.value ds : Int) else Digits.value ds
    if i < 0x8000000000000000 then Json.Number.ofInt? i else none
  else none

/-- A literal behind an optional sign whose value is finite. -/
def float? (cs : List Char) : Option Json.Number :=
  let (negative, unsigned) := Literal.readSign cs
  match Literal.read unsigned with
  | .ok (l, []) => Json.Number.ofFloat? (l.toFloat negative)
  | _ => none

/-- The cell that a text denotes; blanks around it do not matter. -/
def ofText (raw : String) : Cell :=
  let cs := Blank.trim raw.toList
  if cs = [] then null
  else if cs = ['t', 'r', 'u', 'e'] then bool true
  else if cs = ['f', 'a', 'l', 's', 'e'] then bool false
  else match (int? cs).or (float? cs) with
    | some n => number n
    | none => text (String.ofList cs)

def toJson : Cell → Json
  | null => .null
  | bool b => .bool b
  | number n => .number n
  | text s => .string s

def ofJson? : Json → Option Cell
  | .null => some null
  | .bool b => some (bool b)
  | .number n => some (number n)
  | .string s => some (text s)
  | .array _ | .object _ => none

def codec : Json.Codec Cell := .buffered toJson ofJson?

end Cell
end CorrelationPlot
