import CorrelationPlot.Json.Value

/-!
JSON text after reading and before judging. Some faults depend on who reads: a value that nobody
asked for may be nested without bound and may hold numbers and escapes that no value can hold. A
written value therefore keeps its faults in the place where they occur, and the reader of a type
reports the first one that concerns it.
-/
namespace CorrelationPlot.Json

/-- What is wrong with a text: it ends early, it is no JSON, or it is JSON of another shape. -/
inductive Fault where
  | truncated
  | malformed
  | mismatched
  deriving DecidableEq, Repr

/-- A place where no reader gets further, as seen by a reader of values and by one that skips. -/
structure Stop where
  strict : Fault
  lenient : Fault
  deriving DecidableEq, Repr

def Stop.both (f : Fault) : Stop := ⟨f, f⟩

/-- A value as it stands in a text. A number is absent when it is too great, a text is a fault when
its escapes denote no characters, and a list says where it stopped if it was never closed. -/
inductive Written where
  | null
  | bool (b : Bool)
  | number (n : Option Number)
  | string (s : Except Fault String)
  | array (items : List Written) (stop : Option Stop)
  | object (members : List (Except Fault String × Written)) (stop : Option Stop)
  | stopped (s : Stop)

namespace Written

mutual

def skipFault? : Written → Option Fault
  | .array items stop => skipItems? items stop
  | .object members stop => skipMembers? members stop
  | .stopped s => some s.lenient
  | .null | .bool _ | .number _ | .string _ => none

def skipItems? : List Written → Option Stop → Option Fault
  | [], stop => stop.map Stop.lenient
  | w :: ws, stop => w.skipFault?.or (skipItems? ws stop)

def skipMembers? : List (Except Fault String × Written) → Option Stop → Option Fault
  | [], stop => stop.map Stop.lenient
  | (_, w) :: ms, stop => w.skipFault?.or (skipMembers? ms stop)

end

def closed : Option Stop → Except Fault Unit
  | none => .ok ()
  | some s => .error s.strict

mutual

/-- The value of a text that must be sound throughout, with at most `depth` containers open at any
place. -/
def toJson (depth : Nat) : Written → Except Fault Json
  | .null => .ok .null
  | .bool b => .ok (.bool b)
  | .number none => .error .malformed
  | .number (some n) => .ok (.number n)
  | .string s => s.map Json.string
  | .array items stop =>
    match depth with
    | 0 => .error .malformed
    | d + 1 => (itemsToJson d items stop).map Json.array
  | .object members stop =>
    match depth with
    | 0 => .error .malformed
    | d + 1 => (membersToJson d members stop).map Json.object
  | .stopped s => .error s.strict

def itemsToJson (depth : Nat) : List Written → Option Stop → Except Fault (List Json)
  | [], stop => (closed stop).map fun _ => []
  | w :: ws, stop => do
    let j ← w.toJson depth
    let js ← itemsToJson depth ws stop
    .ok (j :: js)

def membersToJson (depth : Nat) :
    List (Except Fault String × Written) → Option Stop → Except Fault (List (String × Json))
  | [], stop => (closed stop).map fun _ => []
  | (key, w) :: ms, stop => do
    let k ← key
    let j ← w.toJson depth
    let js ← membersToJson depth ms stop
    .ok ((k, j) :: js)

end

mutual

/-- A value as its own text would be read. -/
def ofJson : Json → Written
  | .null => .null
  | .bool b => .bool b
  | .number n => .number (some n)
  | .string s => .string (.ok s)
  | .array items => .array (ofItems items) none
  | .object members => .object (ofMembers members) none

def ofItems : List Json → List Written
  | [] => []
  | j :: js => ofJson j :: ofItems js

def ofMembers : List (String × Json) → List (Except Fault String × Written)
  | [] => []
  | (k, j) :: ms => (.ok k, ofJson j) :: ofMembers ms

end

end Written
end CorrelationPlot.Json
