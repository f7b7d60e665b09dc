import CorrelationPlot.Palette
import CorrelationPlot.Sketch.Scale

/-!
The density of points: counts over a square grid of bins, and the colours of the counts.
-/
namespace CorrelationPlot.Density

abbrev Point := Float × Float

def add (counts : List (List Nat)) (bin : Nat × Nat) : List (List Nat) :=
  counts.modify bin.1 fun column => column.modify bin.2 (· + 1)

/-- How many points fall into each of `n` by `n` bins, first by x and then by y. -/
def bins (points : List Point) (x y : Interval) (n : Nat) : List (List Nat) :=
  points.foldl (fun counts p => add counts (x.bin n p.1, y.bin n p.2))
    (List.replicate n (List.replicate n 0))

/-- The colours of the heat scale, with the value at which each is reached. -/
def stops : List (Float × Float × Float × Float) :=
  [(0, 0, 0, 0), (0.3, 230, 0, 0), (0.6, 255, 210, 0), (1, 255, 255, 255)]

def between (a b part : Float) : UInt8 :=
  UInt8.ofNat (Binary64.toIntWithin 0 255 Binary64.round (a + (b - a) * part)).toNat

def heat (v : Float) : List (Float × Float × Float × Float) → Rgb
  | (lo, r0, g0, b0) :: (hi, r1, g1, b1) :: rest =>
    if v ≤ hi then
      let part := (v - lo) / (hi - lo)
      ⟨between r0 r1 part, between g0 g1 part, between b0 b1 part⟩
    else heat v ((hi, r1, g1, b1) :: rest)
  | _ => ⟨255, 255, 255⟩

/-- The colour of a count beside the greatest count: sparse is pale and dense is dark. -/
def color (count greatest : Nat) : Rgb :=
  let v := 1 - Float.ofNat count / Float.ofNat greatest
  heat (if v < 0 then 0 else if 1 < v then 1 else v) stops

end CorrelationPlot.Density
