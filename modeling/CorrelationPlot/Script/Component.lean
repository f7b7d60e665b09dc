import CorrelationPlot.Script.Reader

/-!
The components of a chart script, such as `correlation(x: flow, y: pressure)` or `grid(columns: 3)`.
-/
namespace CorrelationPlot.Script

structure ChartPart where
  x : String
  y : String
  display : Option String
  deriving DecidableEq, Repr

structure AppearancePart where
  background : Option String
  text : Option String
  deriving DecidableEq, Repr

inductive Component where
  | chart (c : ChartPart)
  | appearance (a : AppearancePart)
  | grid (columns : UInt64)
  | size (width height : UInt32)
  deriving DecidableEq, Repr

def lastArgument [DecidableEq κ] (key : κ) (arguments : List (κ × String)) : Option String :=
  ((arguments.filter fun a => a.1 = key).getLast?).map (·.2)

def openParen : Reader Unit := .spaced (.mark '(')

def closeParen : Reader Unit := .spaced (.mark ')')

def comma : Reader Unit := .spaced (.mark ',')

/-- A name with its colon, then a value. -/
def argument (key : κ) (name : List Char) (value : Reader String) : Reader (κ × String) :=
  .map (fun v => (key, v)) (.after (.spaced (.word name)) (.spaced value))

/-- The names of a component's arguments, in parentheses and in any order and number. -/
def arguments (element : Reader α) : Reader (List α) := fun cs => do
  let ((), rest) ← openParen cs
  let (as, rest) ← Reader.separated comma element rest
  let ((), rest) ← closeParen rest
  .ok (as, rest)

inductive ChartKey where
  | x
  | y
  | display
  deriving DecidableEq, Repr

def chartArgument : Reader (ChartKey × String) :=
  .orElse (argument .x "x:".toList fieldName)
    (.orElse (argument .y "y:".toList fieldName) (argument .display "display:".toList quoted))

def readChart : Reader Component := fun cs => do
  let ((), rest) ← Reader.spaced (.word "correlation".toList) cs
  let (as, rest) ← arguments chartArgument rest
  match lastArgument .x as, lastArgument .y as with
  | some x, some y => .ok (.chart ⟨x, y, lastArgument .display as⟩, rest)
  | _, _ => .error (.at .sense cs)

inductive AppearanceKey where
  | background
  | text
  deriving DecidableEq, Repr

def appearanceArgument : Reader (AppearanceKey × String) :=
  .orElse (argument .background "background:".toList quoted)
    (argument .text "text:".toList quoted)

def readAppearance : Reader Component := fun cs => do
  let ((), rest) ← Reader.spaced (.word "appearance".toList) cs
  let (as, rest) ← arguments appearanceArgument rest
  .ok (.appearance ⟨lastArgument .background as, lastArgument .text as⟩, rest)

/-- The number of columns that a value denotes: a whole number from one on. Greater numbers than 64
bits hold become the greatest one. -/
def columns? (v : Float) : Option UInt64 :=
  if Binary64.isFinite v ∧ 1 ≤ Binary64.floor v ∧ Binary64.ceil v = Binary64.floor v then
    some (UInt64.ofNat (Binary64.toIntWithin 0 (UInt64.size - 1 : Nat) Binary64.floor v).toNat)
  else none

def readGrid : Reader Component := fun cs => do
  let ((), rest) ← Reader.spaced (.word "grid".toList) cs
  let ((), rest) ← openParen rest
  let ((), rest) ← Reader.spaced (.word "columns:".toList) rest
  let (v, rest) ← Reader.spaced number rest
  let ((), rest) ← closeParen rest
  match columns? v with
  | some n => .ok (.grid n, rest)
  | none => .error (.at .sense cs)

/-- The number of pixels that a value denotes: its whole part, if the value is at least one and at
most the greatest number of 32 bits. -/
def pixels? (v : Float) : Option UInt32 :=
  if Binary64.isFinite v ∧ 1 ≤ Binary64.floor v ∧ Binary64.ceil v < UInt32.size then
    some (UInt32.ofNat (Binary64.floor v).toNat)
  else none

def readSize : Reader Component := fun cs => do
  let ((), rest) ← Reader.spaced (.word "size".toList) cs
  let ((), rest) ← openParen rest
  let ((), rest) ← Reader.spaced (.word "width:".toList) rest
  let (w, rest) ← Reader.spaced number rest
  let ((), rest) ← comma rest
  let ((), rest) ← Reader.spaced (.word "height:".toList) rest
  let (h, rest) ← Reader.spaced number rest
  let ((), rest) ← closeParen rest
  match pixels? w, pixels? h with
  | some width, some height => .ok (.size width height, rest)
  | _, _ => .error (.at .sense cs)

/-- Any component. When none fits, the failure is that of the last kind. -/
def readComponent : Reader Component :=
  .orElse readChart (.orElse readAppearance (.orElse readGrid readSize))

end CorrelationPlot.Script
