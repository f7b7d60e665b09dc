import CorrelationPlot.Number.Literal

/-!
Readers for the tokens of chart scripts. A reader returns a value and the rest of the text, or the
place where it failed and what was expected there.
-/
namespace CorrelationPlot.Script

inductive Expected where
  | word
  | mark
  | number
  /-- A component whose parts make sense together. -/
  | sense
  | ending
  deriving DecidableEq, Repr

/-- A fatal failure is not mended by another reading of the same text. -/
structure Failure where
  expected : Expected
  fatal : Bool
  rest : List Char
  deriving DecidableEq, Repr

abbrev Reader (α : Type) := List Char → Except Failure (α × List Char)

def Failure.at (expected : Expected) (rest : List Char) : Failure := ⟨expected, false, rest⟩

def isBlank (c : Char) : Bool := c = ' ' || c = '\t' || c = '\r' || c = '\n'

def skipBlank (cs : List Char) : List Char := cs.dropWhile isBlank

namespace Reader

def map (f : α → β) (p : Reader α) : Reader β := fun cs =>
  (p cs).map fun (a, rest) => (f a, rest)

def spaced (p : Reader α) : Reader α := fun cs =>
  (p (skipBlank cs)).map fun (a, rest) => (a, skipBlank rest)

/-- Reads `p` where `first` fails without being fatal. -/
def orElse (first p : Reader α) : Reader α := fun cs =>
  match first cs with
  | .error f => if f.fatal then .error f else p cs
  | .ok r => .ok r

def after (lead : Reader Unit) (p : Reader α) : Reader α := fun cs => do
  let ((), rest) ← lead cs
  p rest

/-- The elements that follow, each behind a separator. A separator without an element is left. -/
def more (separator : Reader Unit) (element : Reader α) :
    Nat → List Char → Except Failure (List α × List Char)
  | 0, cs => .ok ([], cs)
  | fuel + 1, cs =>
    match after separator element cs with
    | .error f => if f.fatal then .error f else .ok ([], cs)
    | .ok (a, rest) => (more separator element fuel rest).map fun (as, rest) => (a :: as, rest)

def separated1 (separator : Reader Unit) (element : Reader α) : Reader (List α) := fun cs => do
  let (a, rest) ← element cs
  let (as, rest) ← more separator element rest.length rest
  .ok (a :: as, rest)

def separated (separator : Reader Unit) (element : Reader α) : Reader (List α) :=
  orElse (separated1 separator element) fun cs => .ok ([], cs)

def word (w : List Char) : Reader Unit := fun cs =>
  if w.isPrefixOf cs then .ok ((), cs.drop w.length) else .error (.at .word cs)

def mark (c : Char) : Reader Unit
  | d :: rest => if c = d then .ok ((), rest) else .error (.at .mark (d :: rest))
  | [] => .error (.at .mark [])

end Reader

def isLetter (c : Char) : Bool := ('a' ≤ c && c ≤ 'z') || ('A' ≤ c && c ≤ 'Z')

def startsIdentifier (c : Char) : Bool := isLetter c || c = '_'

def continuesIdentifier (c : Char) : Bool :=
  isLetter c || Digits.isDigit c || c = '_' || c = '.'

/-- A letter or underscore, then letters, digits, underscores and points, all ASCII. -/
def identifier : Reader String
  | c :: rest =>
    if startsIdentifier c then
      .ok (String.ofList (c :: rest.takeWhile continuesIdentifier),
        rest.dropWhile continuesIdentifier)
    else .error (.at .word (c :: rest))
  | [] => .error (.at .word [])

/-- Text between double quotes; nothing in it is special. -/
def quoted : Reader String
  | '"' :: rest =>
    match rest.dropWhile (· ≠ '"') with
    | _ :: after => .ok (String.ofList (rest.takeWhile (· ≠ '"')), after)
    | [] => .error (.at .mark [])
  | cs => .error (.at .mark cs)

def fieldName : Reader String := .orElse quoted identifier

def namedNumber : Reader Float := fun cs =>
  let lower := (cs.take 3).map Char.toLower
  if lower = ['n', 'a', 'n'] then .ok (Binary64.nan, cs.drop 3)
  else if lower = ['i', 'n', 'f'] then .ok (Binary64.infinity false, cs.drop 3)
  else .error (.at .number cs)

/-- A number. An exponent that has begun has to be finished. -/
def number : Reader Float := fun cs =>
  let (negative, unsigned) := Literal.readSign cs
  match Literal.read unsigned with
  | .ok (l, rest) => .ok (l.toFloat negative, rest)
  | .error .openExponent => .error ⟨.number, true, cs⟩
  | .error .noDigits => namedNumber cs

end CorrelationPlot.Script
