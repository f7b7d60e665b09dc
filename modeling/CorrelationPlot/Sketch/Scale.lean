import CorrelationPlot.Number.Binary64

/-!
Ranges of values and the pixels that they map to.
-/
namespace CorrelationPlot

structure Interval where
  lo : Float
  hi : Float
  deriving DecidableEq

namespace Interval

/-- The least and the greatest of some values, infinite the wrong way round for none. -/
def extent (values : List Float) : Interval :=
  values.foldl (fun i v => ⟨if v < i.lo then v else i.lo, if i.hi < v then v else i.hi⟩)
    ⟨Binary64.infinity false, Binary64.infinity true⟩

/-- Leaves a twentieth of room on both sides, or one unit around a single value. -/
def padded (i : Interval) : Interval :=
  if i.lo == i.hi then ⟨i.lo - 1, i.hi + 1⟩
  else
    let room := (i.hi - i.lo) * 0.05
    ⟨i.lo - room, i.hi + room⟩

def fraction (i : Interval) (v : Float) : Float := (v - i.lo) / (i.hi - i.lo)

/-- The bin of a value when the interval has `n` bins of one width; values outside fall into the
outermost bins. -/
def bin (i : Interval) (n : Nat) (v : Float) : Nat :=
  (Binary64.toIntWithin 0 (n - 1 : Nat) Binary64.floor (i.fraction v * Float.ofNat n)).toNat

/-- The pixel of a value on an axis that runs from `start` to `stop`. Pixels are cut towards
`start`, but for a thousandth that absorbs rounding. An interval of a single value has no place on
the axis and maps to half the length. -/
def pixel (i : Interval) (start stop : Int) (v : Float) : Int :=
  let length := stop - start
  let offset := Float.ofInt length * i.fraction v
  let within := Binary64.toIntWithin (-0x80000000) 0x7FFFFFFF
  if i.hi == i.lo then length.tdiv 2
  else if length = 0 then stop
  else if 0 < length then start + within Binary64.floor (offset + 0.001)
  else start + within Binary64.ceil (offset - 0.001)

end Interval
end CorrelationPlot
