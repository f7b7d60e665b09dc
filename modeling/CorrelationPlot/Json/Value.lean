import CorrelationPlot.Number.Decimal

/-!
JSON values. Members of an object keep their order, and numbers are the ones a document can hold:
integers of 64 bits, signed or not, and finite binary64 values.
-/
namespace CorrelationPlot

namespace Json

inductive Number where
  | int (i : Int) (inRange : -0x8000000000000000 ≤ i ∧ i < UInt64.size)
  | float (x : Float) (finite : Binary64.isFinite x)
  deriving DecidableEq

namespace Number

def ofInt? (i : Int) : Option Number :=
  if h : -0x8000000000000000 ≤ i ∧ i < UInt64.size then some (.int i h) else none

def ofFloat? (x : Float) : Option Number :=
  if h : Binary64.isFinite x then some (.float x h) else none

def toFloat : Number → Float
  | .int i _ => Binary64.ofInt i
  | .float x _ => x

end Number
end Json

inductive Json where
  | null
  | bool (b : Bool)
  | number (n : Json.Number)
  | string (s : String)
  | array (items : List Json)
  | object (members : List (String × Json))

namespace Json

def ofInt (i : Int) : Json := ((Number.ofInt? i).map number).getD null

def ofNat (n : Nat) : Json := ofInt n

/-- A value that is no finite number is written as `null`. -/
def ofFloat (x : Float) : Json := ((Number.ofFloat? x).map number).getD null

/-- Puts one member into a list sorted by key, replacing a member of the same key. -/
def insertMember (key : String) (value : Json) : List (String × Json) → List (String × Json)
  | [] => [(key, value)]
  | (k, v) :: rest =>
    if key < k then (key, value) :: (k, v) :: rest
    else if key = k then (key, value) :: rest
    else (k, v) :: insertMember key value rest

/-- Members sorted by key; of several members with one key the last is kept. -/
def sortMembers (members : List (String × Json)) : List (String × Json) :=
  members.foldl (fun sorted m => insertMember m.1 m.2 sorted) []

mutual

/-- The same value with every object sorted by key and free of repeated keys. -/
def sorted : Json → Json
  | array items => array (sortedItems items)
  | object members => object (sortMembers (sortedMembers members))
  | j => j

def sortedItems : List Json → List Json
  | [] => []
  | j :: js => j.sorted :: sortedItems js

def sortedMembers : List (String × Json) → List (String × Json)
  | [] => []
  | (k, j) :: ms => (k, j.sorted) :: sortedMembers ms

end

end Json
end CorrelationPlot
