import CorrelationPlot.Number.Decimal

/-!
Decimal literals as people write them: digits on at least one side of an optional point, and an
optional exponent.
-/
namespace CorrelationPlot

/-- The digits before and after the point, and the written exponent. -/
structure Literal where
  whole : List Char
  fraction : List Char
  exponent : Int

namespace Literal

inductive Flaw where
  | noDigits
  | openExponent
  deriving DecidableEq, Repr

def decimal (l : Literal) : Decimal :=
  ⟨Digits.value (l.whole ++ l.fraction), l.exponent - l.fraction.length⟩

def toFloat (negative : Bool) (l : Literal) : Float := l.decimal.toFloat negative

def readSign : List Char → Bool × List Char
  | '+' :: rest => (false, rest)
  | '-' :: rest => (true, rest)
  | rest => (false, rest)

def readMantissa (cs : List Char) : Option ((List Char × List Char) × List Char) :=
  match Digits.span cs with
  | ([], '.' :: rest) =>
    match Digits.span rest with
    | ([], _) => none
    | (fraction, rest) => some (([], fraction), rest)
  | ([], _) => none
  | (whole, '.' :: rest) => let (fraction, rest) := Digits.span rest; some ((whole, fraction), rest)
  | (whole, rest) => some ((whole, []), rest)

def readExponent : List Char → Except Flaw (Int × List Char)
  | c :: rest =>
    if c = 'e' ∨ c = 'E' then
      let (negative, rest) := readSign rest
      match Digits.span rest with
      | ([], _) => .error .openExponent
      | (ds, rest) =>
        .ok (if negative then -(Digits.value ds : Int) else Digits.value ds, rest)
    else .ok (0, c :: rest)
  | [] => .ok (0, [])

/-- Reads the longest literal without a sign. -/
def read (cs : List Char) : Except Flaw (Literal × List Char) :=
  match readMantissa cs with
  | none => .error .noDigits
  | some ((whole, fraction), rest) =>
    match readExponent rest with
    | .error flaw => .error flaw
    | .ok (e, rest) => .ok (⟨whole, fraction, e⟩, rest)

end Literal
end CorrelationPlot
