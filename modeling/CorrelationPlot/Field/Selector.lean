import CorrelationPlot.Json.Codec
import CorrelationPlot.PlotFault

/-!
Selectors refer to one named column and say what it can be used for.
-/
namespace CorrelationPlot

structure Traits where
  numeric : Bool := false
  binary : Bool := false
  semanticTypes : List String := []
  deriving DecidableEq, Repr

/-- The full name identifies a field; the runtime name is its second name for look-up. -/
structure Selector where
  runtimeName : String
  fullName : String
  traits : Traits
  deriving DecidableEq, Repr

def Traits.codec : Json.Codec Traits :=
  Json.Record.codec
    [.withDefault "numeric" .bool false, .withDefault "binary" .bool false,
      .withDefault "semanticTypes" (.list .string) []]
    (fun t => (t.numeric, t.binary, t.semanticTypes, ()))
    (fun (numeric, binary, types, ()) => ⟨numeric, binary, types⟩)

namespace Selector

def named (name : String) (numeric : Bool) : Selector := ⟨name, name, { numeric }⟩

def isNumeric (f : Selector) : Bool := f.traits.numeric

def same (f g : Selector) : Bool := f.fullName = g.fullName

/-- The first column with the full name, or else the first with the runtime name. -/
def column? (f : Selector) (headers : List String) : Option Nat :=
  (headers.idxOf? f.fullName).or (headers.idxOf? f.runtimeName)

def column (f : Selector) (headers : List String) : Except PlotFault Nat :=
  match f.column? headers with
  | some i => .ok i
  | none => .error (.unknownField f.fullName headers)

def codec : Json.Codec Selector :=
  Json.Record.codec
    [.required "runtimeName" .string, .required "fullDbName" .string,
      .withDefault "fieldCharacteristics" Traits.codec {}]
    (fun f => (f.runtimeName, f.fullName, f.traits, ()))
    (fun (runtimeName, fullName, traits, ()) => ⟨runtimeName, fullName, traits⟩)

end Selector
end CorrelationPlot
