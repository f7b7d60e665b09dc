import CorrelationPlot.Number.Decimal

/-!
The text of binary64 values. JSON documents use positional text for middle exponents and scientific
text outside; drawings use positional text only.
-/
namespace CorrelationPlot.FloatText

/-- The digits of `d` with the point in its place and at least one digit on both sides. -/
def positional (d : Decimal) : List Char :=
  let ds := Digits.ofNat d.digits
  if 0 ≤ d.exponent then ds ++ List.replicate d.exponent.toNat '0' ++ ['.', '0']
  else
    let places := (-d.exponent).toNat
    let padded := List.replicate (places + 1 - ds.length) '0' ++ ds
    padded.take (padded.length - places) ++ '.' :: padded.drop (padded.length - places)

/-- One digit before the point, and an exponent that always has a sign. -/
def scientific (d : Decimal) : List Char :=
  let ds := Digits.ofNat d.digits
  let exponent := d.exponent + (ds.length - 1 : Nat)
  let sign := if exponent < 0 then '-' else '+'
  let mantissa := if ds.length = 1 then ds else ds.take 1 ++ '.' :: ds.drop 1
  mantissa ++ 'e' :: sign :: Digits.ofNat exponent.natAbs

def leading (d : Decimal) : Int := d.exponent + ((Digits.ofNat d.digits).length - 1 : Nat)

def signed (x : Float) (text : List Char) : List Char :=
  if Binary64.isNegative x then '-' :: text else text

/-- The JSON text of a finite value: positional from `10 ^ -5` up to below `10 ^ 16`. -/
def json (x : Float) : List Char :=
  let d := Decimal.shortest .toEven x
  signed x (if -5 ≤ leading d ∧ leading d < 16 then positional d else scientific d)

/-- Positional text in which a whole number has no point. -/
def plain (x : Float) : List Char :=
  let d := Decimal.shortest .away x
  signed x (if 0 ≤ d.exponent then (positional d).dropLast.dropLast else positional d)

end CorrelationPlot.FloatText
