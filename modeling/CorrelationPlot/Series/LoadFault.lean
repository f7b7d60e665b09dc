import CorrelationPlot.Json.Written
import CorrelationPlot.Text.Characters

/-!
Why no table can be read from a document.
-/
namespace CorrelationPlot

inductive RecordFault where
  | width (expected found : Nat)
  | encoding
  deriving DecidableEq, Repr

inductive LoadFault where
  | notJson (cause : Json.Fault)
  | notTable
  | notTables
  /-- JSON that is neither an object nor an array. -/
  | scalar
  | headers (cause : RecordFault)
  | noGroupColumn (name : String)
  /-- Records count from one. -/
  | record (number : Nat) (cause : RecordFault)
  deriving DecidableEq, Repr

def LoadFault.headersMessage : String := "Failed to read CSV headers"

def LoadFault.message : LoadFault → String
  | .notJson _ => "Query response is not valid JSON"
  | .notTable => "Failed to parse query result"
  | .notTables => "Failed to parse query result array"
  | .scalar => "Query response must be a JSON object or array of objects"
  | .headers _ => headersMessage
  | .noGroupColumn name => "Group-by column '" ++ name ++ "' not found"
  | .record number _ => "Failed to read CSV record " ++ Digits.text number

end CorrelationPlot
