import CorrelationPlot.Json.Value
import CorrelationPlot.Number.FloatText
import CorrelationPlot.Text.Characters

/-!
JSON text: compact, without blanks, or indented by two spaces. Text outside ASCII stays as it is.
-/
namespace CorrelationPlot.Json

/-- A character as it stands between quotes. -/
def escaped (c : Char) : List Char :=
  if c = '"' then ['\\', '"']
  else if c = '\\' then ['\\', '\\']
  else if c = '\n' then ['\\', 'n']
  else if c = '\r' then ['\\', 'r']
  else if c = '\t' then ['\\', 't']
  else if c = Char.ofNat 8 then ['\\', 'b']
  else if c = Char.ofNat 12 then ['\\', 'f']
  else if c.toNat < 32 then
    ['\\', 'u', '0', '0', Hex.digit (c.toNat / 16), Hex.digit (c.toNat % 16)]
  else [c]

def quoted (s : String) : List Char := '"' :: s.toList.flatMap escaped ++ ['"']

def Number.text : Number → List Char
  | .int i _ => Digits.ofInt i
  | .float x _ => FloatText.json x

mutual

def compact : Json → List Char
  | .null => ['n', 'u', 'l', 'l']
  | .bool true => ['t', 'r', 'u', 'e']
  | .bool false => ['f', 'a', 'l', 's', 'e']
  | .number n => n.text
  | .string s => quoted s
  | .array [] => ['[', ']']
  | .array (j :: js) => '[' :: compact j ++ compactItems js
  | .object [] => ['\x7b', '\x7d']
  | .object ((k, j) :: ms) => '\x7b' :: quoted k ++ ':' :: compact j ++ compactMembers ms

/-- The items after the first, and the closing bracket. -/
def compactItems : List Json → List Char
  | [] => [']']
  | j :: js => ',' :: compact j ++ compactItems js

def compactMembers : List (String × Json) → List Char
  | [] => ['\x7d']
  | (k, j) :: ms => ',' :: quoted k ++ ':' :: compact j ++ compactMembers ms

end

/-- A line break and the indentation of a level. -/
def newline (level : Nat) : List Char := '\n' :: List.replicate (2 * level) ' '

mutual

/-- Indented text of a value that stands at `level`. -/
def indented (level : Nat) : Json → List Char
  | .array (j :: js) =>
    '[' :: newline (level + 1) ++ indented (level + 1) j ++ indentedItems level js
  | .object ((k, j) :: ms) =>
    '\x7b' :: newline (level + 1) ++ quoted k ++ ':' :: ' ' :: indented (level + 1) j ++
      indentedMembers level ms
  | .array [] => ['[', ']']
  | .object [] => ['\x7b', '\x7d']
  | .null => compact .null
  | .bool b => compact (.bool b)
  | .number n => n.text
  | .string s => quoted s

def indentedItems (level : Nat) : List Json → List Char
  | [] => newline level ++ [']']
  | j :: js => ',' :: newline (level + 1) ++ indented (level + 1) j ++ indentedItems level js

def indentedMembers (level : Nat) : List (String × Json) → List Char
  | [] => newline level ++ ['\x7d']
  | (k, j) :: ms =>
    ',' :: newline (level + 1) ++ quoted k ++ ':' :: ' ' :: indented (level + 1) j ++
      indentedMembers level ms

end

def compactText (j : Json) : String := String.ofList j.compact

def indentedText (j : Json) : String := String.ofList (j.indented 0)

end CorrelationPlot.Json
