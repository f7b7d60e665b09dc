import CorrelationPlot.Number.Binary64
import CorrelationPlot.Text.Characters

/-!
Decimal numbers `digits * 10 ^ exponent` beside binary64 values: the value nearest to a decimal, and
the shortest decimal that reads back as a given value.
-/
namespace CorrelationPlot

structure Decimal where
  digits : Nat
  exponent : Int
  deriving DecidableEq, Repr

namespace Decimal

/-- Ten to a power; negative powers count as one. -/
def tenTo (exponent : Int) : Nat := Nat.pow 10 exponent.toNat

def ratio (d : Decimal) : Nat × Nat :=
  (d.digits * tenTo d.exponent, tenTo (-d.exponent))

/-- The binary64 value nearest to a decimal. Exponents far outside the range of the format are
settled without building their powers. -/
def toFloat (negative : Bool) (d : Decimal) : Float :=
  if d.digits = 0 then Binary64.ofWord negative 0
  else if 2048 < d.exponent then Binary64.infinity negative
  else if d.exponent + Nat.log2 d.digits < -2048 then Binary64.ofWord negative 0
  else Binary64.nearest negative d.ratio.1 d.ratio.2

/-- Where a decimal goes that lies in the middle between two candidates. -/
inductive Tie where
  | toEven
  | away
  deriving DecidableEq, Repr

/-- The least `k` with `num / den < 10 ^ k`, for a quotient that is not zero. -/
def scale (num den : Nat) : Int :=
  let k : Int := (Digits.ofNat num).length - (Digits.ofNat den).length
  if num * tenTo (-k) < den * tenTo k then k else k + 1

/-- The decimals with the given exponent just below and just above `num / den`. -/
def neighbours (num den : Nat) (exponent : Int) : Decimal × Decimal :=
  let below := num * tenTo (-exponent) / (den * tenTo exponent)
  (⟨below, exponent⟩, ⟨below + 1, exponent⟩)

def nearer (tie : Tie) (num den : Nat) (below above : Decimal) : Decimal :=
  let twice := 2 * num * tenTo (-below.exponent)
  let middle := (2 * below.digits + 1) * (den * tenTo below.exponent)
  if twice < middle then below
  else if middle < twice then above
  else match tie with
    | .toEven => if below.digits % 2 = 0 then below else above
    | .away => above

def word (d : Decimal) : Nat := Binary64.nearestWord d.ratio.1 d.ratio.2

/-- The decimal of one grid that reads back as the magnitude `w`, if there is one. -/
def onGrid (tie : Tie) (w num den : Nat) (exponent : Int) : Option Decimal :=
  let (below, above) := neighbours num den exponent
  if below.word = w then
    some (if above.word = w then nearer tie num den below above else below)
  else if above.word = w then some above
  else none

def strip (d : Decimal) : Decimal :=
  if d.digits ≠ 0 ∧ d.digits % 10 = 0 then strip ⟨d.digits / 10, d.exponent + 1⟩ else d
  termination_by d.digits
  decreasing_by omega

def exact (x : Float) : Decimal := ⟨Binary64.units x * Nat.pow 5 1074, -1074⟩

/-- The decimal with the fewest digits that reads back as the finite value `x` without its sign. Of
two such decimals the nearer is taken. -/
def shortest (tie : Tie) (x : Float) : Decimal :=
  let num := Binary64.units x
  if num = 0 then ⟨0, 0⟩
  else
    let top := scale num Binary64.one
    let found := (List.range 17).findSome? fun (n : Nat) =>
      onGrid tie (Binary64.magnitude x) num Binary64.one (top - (n + 1))
    strip (found.getD (exact x))

end Decimal
end CorrelationPlot
