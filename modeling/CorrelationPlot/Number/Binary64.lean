/-!
Binary64 numbers as exact integers. Every finite value is a whole number of units of `2 ^ -1074`:
a significand below `2 ^ 53` times a power of two. Rounding to an integer and rounding a quotient
to the nearest value are then arithmetic on naturals.
-/
namespace CorrelationPlot.Binary64

/-- The bit above the fraction, which normal values have without writing it. -/
def hiddenBit : Nat := 1 <<< 52

def signBit : Nat := 1 <<< 63

/-- The bits of an infinity, and the first magnitude that is no finite value. -/
def infinityWord : Nat := 2047 * hiddenBit

def word (x : Float) : Nat := x.toBits.toNat

def isNegative (x : Float) : Bool := signBit ≤ word x

/-- The bits without the sign; their order is the order of the magnitudes. -/
def magnitude (x : Float) : Nat := word x % signBit

def isFinite (x : Float) : Bool := magnitude x < infinityWord

def isNaN (x : Float) : Bool := infinityWord < magnitude x

/-- The number of units in a finite magnitude. The least exponent field has no hidden bit. -/
def unitsOfWord (w : Nat) : Nat :=
  if w < hiddenBit then w else (hiddenBit + w % hiddenBit) <<< (w / hiddenBit - 1)

def units (x : Float) : Nat := unitsOfWord (magnitude x)

/-- A finite value in units of `2 ^ -1074`; both zeros give zero. -/
def signedUnits (x : Float) : Int := if isNegative x then -(units x : Int) else units x

def one : Nat := 1 <<< 1074

/-- The whole number nearest to `a / b`; a half goes to the even neighbour. -/
def divideToEven (a b : Nat) : Nat :=
  let q := a / b
  let r := a % b
  if 2 * r < b then q else if b < 2 * r then q + 1 else q + q % 2

/-- The magnitude nearest to `num / den`, an infinity from half a step above the greatest finite
value on. A significand that rounds up to `2 ^ 53` carries into the exponent by itself. -/
def nearestWord (num den : Nat) : Nat :=
  let scaled := num * one
  let power := Nat.log2 (scaled / den) - 52
  min (power * hiddenBit + divideToEven scaled (den <<< power)) infinityWord

def ofWord (negative : Bool) (w : Nat) : Float :=
  Float.ofBits (UInt64.ofNat (if negative then signBit + w else w))

def nearest (negative : Bool) (num den : Nat) : Float := ofWord negative (nearestWord num den)

def infinity (negative : Bool) : Float := ofWord negative infinityWord

def nan : Float := ofWord false (infinityWord + hiddenBit / 2)

def ofInt (i : Int) : Float := nearest (i < 0) i.natAbs 1

def floor (x : Float) : Int := signedUnits x / one

def ceil (x : Float) : Int := -(-signedUnits x / one)

/-- The integer nearest to a finite value; a half goes away from zero. -/
def round (x : Float) : Int :=
  let magnitude : Int := ((2 * units x + one) / (2 * one) : Nat)
  if isNegative x then -magnitude else magnitude

/-- An integer made from `x` by `rounding` and kept between `lo` and `hi`. Infinities go to the ends
and a value that is no number goes to zero. -/
def toIntWithin (lo hi : Int) (rounding : Float → Int) (x : Float) : Int :=
  if isFinite x then max lo (min hi (rounding x))
  else if isNaN x then 0
  else if isNegative x then lo else hi

end CorrelationPlot.Binary64
