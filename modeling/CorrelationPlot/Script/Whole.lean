import CorrelationPlot.Script.Component

/-!
Whole chart scripts: components with bars between them, the later ones overriding the earlier.
-/
namespace CorrelationPlot

structure Script where
  chart : Script.ChartPart
  appearance : Option Script.AppearancePart
  columns : Option UInt64
  size : Option (UInt32 × UInt32)
  deriving DecidableEq, Repr

namespace Script

namespace Component

def chart? : Component → Option ChartPart
  | chart c => some c
  | _ => none

def appearance? : Component → Option AppearancePart
  | appearance a => some a
  | _ => none

def columns? : Component → Option UInt64
  | grid n => some n
  | _ => none

def size? : Component → Option (UInt32 × UInt32)
  | size w h => some (w, h)
  | _ => none

end Component

/-- The last component of each kind. There has to be a chart. -/
def ofComponents? (cs : List Component) : Option Script :=
  (cs.filterMap Component.chart?).getLast?.map fun chart =>
    { chart
      appearance := (cs.filterMap Component.appearance?).getLast?
      columns := (cs.filterMap Component.columns?).getLast?
      size := (cs.filterMap Component.size?).getLast? }

def bar : Reader Unit := .spaced (.word ['|'])

/-- Reads a script, which has to be the whole text. -/
def read : Reader Script := fun cs => do
  let (components, rest) ← Reader.separated1 bar readComponent cs
  match skipBlank rest with
  | [] =>
    match ofComponents? components with
    | some script => .ok (script, [])
    | none => .error (.at .sense cs)
  | rest => .error (.at .ending rest)

def ofText (text : String) : Except Failure Script := (read text.toList).map (·.1)

end Script
end CorrelationPlot
