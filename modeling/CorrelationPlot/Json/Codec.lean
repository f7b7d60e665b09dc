import CorrelationPlot.Json.Printer
import CorrelationPlot.Json.Reader

/-!
Codecs between types and JSON. A record is described once, by the list of its fields, and that list
gives its written form, its reading from an object, and its reading from an array of the fields in
order. Readers report the first fault in the order of the text.
-/
namespace CorrelationPlot.Json

structure Codec (α : Type) where
  encode : α → Json
  /-- Reads a written value below which at most the given number of containers may be open. -/
  decode : Nat → Written → Except Fault α

namespace Codec

def text (c : Codec α) (a : α) : String := (c.encode a).compactText

def indented (c : Codec α) (a : α) : String := (c.encode a).indentedText

def ofText (c : Codec α) (text : String) : Except Fault α := (Document.ofText text).read c.decode

/-- Reads a value that has already been read as JSON; only its shape can be wrong. -/
def ofJson? (c : Codec α) (j : Json) : Option α := (c.decode maxDepth (Written.ofJson j)).toOption

/-- The fault of a value that is not of the expected kind. A faulty scalar reports its own fault,
but nobody looks into a container that is not wanted. -/
def unexpected : Written → Fault
  | .null | .bool _ | .array _ _ | .object _ _ | .number (some _) | .string (.ok _) => .mismatched
  | .number none => .malformed
  | .string (.error f) => f
  | .stopped s => s.strict

def string : Codec String where
  encode := Json.string
  decode _
    | .string s => s
    | w => .error (unexpected w)

def bool : Codec Bool where
  encode := Json.bool
  decode _
    | .bool b => .ok b
    | w => .error (unexpected w)

def natBelow (bound : Nat) : Codec Nat where
  encode := Json.ofNat
  decode _
    | .number (some (.int i _)) =>
      if 0 ≤ i ∧ i.toNat < bound then .ok i.toNat else .error .mismatched
    | w => .error (unexpected w)

def count : Codec Nat := natBelow UInt64.size

def imap (c : Codec α) (f : α → β) (g : β → α) : Codec β where
  encode b := c.encode (g b)
  decode depth w := (c.decode depth w).map f

def word32 : Codec UInt32 := (natBelow UInt32.size).imap UInt32.ofNat UInt32.toNat

def word64 : Codec UInt64 := count.imap UInt64.ofNat UInt64.toNat

def float : Codec Float where
  encode := Json.ofFloat
  decode _
    | .number (some n) => .ok n.toFloat
    | w => .error (unexpected w)

def option (c : Codec α) : Codec (Option α) where
  encode
    | none => .null
    | some a => c.encode a
  decode depth
    | .null => .ok none
    | w => (c.decode depth w).map some

def decodeItems (c : Codec α) (depth : Nat) : List Written → Option Stop → Except Fault (List α)
  | [], stop => (Written.closed stop).map fun _ => []
  | w :: ws, stop => do
    let a ← c.decode depth w
    let as ← decodeItems c depth ws stop
    .ok (a :: as)

def list (c : Codec α) : Codec (List α) where
  encode as := .array (as.map c.encode)
  decode
    | 0, .array _ _ => .error .malformed
    | depth + 1, .array items stop => decodeItems c depth items stop
    | _, w => .error (unexpected w)

/-- Reads the whole value as JSON before looking at its shape, so that only faults of the text come
before a mismatch. -/
def buffered (encode : α → Json) (decode? : Json → Option α) : Codec α where
  encode := encode
  decode depth w := do
    match decode? (← w.toJson depth) with
    | some a => .ok a
    | none => .error .mismatched

/-- The only value of a type, written as a word or as an object that names the word. -/
def word (name : String) (a : α) : Codec α where
  encode _ := .string name
  decode _
    | .string (.ok s) => if s = name then .ok a else .error .mismatched
    | .object [(.ok key, .null)] none => if key = name then .ok a else .error .mismatched
    | w => .error (unexpected w)

end Codec

structure Field : Type 1 where
  name : String
  Carrier : Type
  codec : Codec Carrier
  /-- What a missing member stands for, if it may be missing. -/
  absent : Option Carrier
  /-- Values that are not written. -/
  omits : Carrier → Bool

namespace Field

def required (name : String) (codec : Codec α) : Field := ⟨name, α, codec, none, fun _ => false⟩

def withDefault (name : String) (codec : Codec α) (value : α) : Field :=
  ⟨name, α, codec, some value, fun _ => false⟩

/-- A member that is left out when it has no value. -/
def omitted (name : String) (codec : Codec α) : Field :=
  ⟨name, Option α, codec.option, some none, Option.isNone⟩

end Field

/-- One value for each field. -/
def Values : List Field → Type
  | [] => Unit
  | f :: fs => f.Carrier × Values fs

/-- The values found so far. -/
def Draft : List Field → Type
  | [] => Unit
  | f :: fs => Option f.Carrier × Draft fs

namespace Draft

def empty : (fs : List Field) → Draft fs
  | [] => ()
  | _ :: fs => (none, empty fs)

/-- Takes the value of one member. A field may come once; a member of no field is skipped. -/
def put (depth : Nat) (key : String) (w : Written) :
    (fs : List Field) → Draft fs → Except Fault (Draft fs)
  | [], draft =>
    match w.skipFault? with
    | some f => .error f
    | none => .ok draft
  | f :: fs, (slot, draft) =>
    if key = f.name then
      match slot with
      | some _ => .error .mismatched
      | none => (f.codec.decode depth w).map fun a => (some a, draft)
    else (put depth key w fs draft).map fun draft => (slot, draft)

def putAll (depth : Nat) (fs : List Field) (stop : Option Stop) :
    List (Except Fault String × Written) → Draft fs → Except Fault (Draft fs)
  | [], draft => (Written.closed stop).map fun _ => draft
  | (key, w) :: members, draft => do
    let key ← key
    let draft ← put depth key w fs draft
    putAll depth fs stop members draft

/-- The values of all fields, if none is missing that has to be there. -/
def finish? : (fs : List Field) → Draft fs → Option (Values fs)
  | [], _ => some ()
  | f :: fs, (slot, draft) =>
    match slot.or f.absent, finish? fs draft with
    | some a, some rest => some (a, rest)
    | _, _ => none

end Draft

namespace Record

def members : (fs : List Field) → Values fs → List (String × Json)
  | [], _ => []
  | f :: fs, (a, rest) =>
    if f.omits a then members fs rest else (f.name, f.codec.encode a) :: members fs rest

/-- Reads the items of an array as the fields in order. An item too many shows as the comma before
it, where a closing bracket was needed. -/
def decodeItems (depth : Nat) (stop : Option Stop) :
    (fs : List Field) → List Written → Except Fault (Values fs)
  | [], [] => (Written.closed stop).map fun _ => ()
  | [], _ :: _ => .error .malformed
  | f :: fs, [] =>
    match stop, f.absent with
    | some s, _ => .error s.strict
    | none, some a => (decodeItems depth stop fs []).map fun rest => (a, rest)
    | none, none => .error .mismatched
  | f :: fs, w :: ws => do
    let a ← f.codec.decode depth w
    let rest ← decodeItems depth stop fs ws
    .ok (a, rest)

def decodeMembers (depth : Nat) (fs : List Field) (members : List (Except Fault String × Written))
    (stop : Option Stop) : Except Fault (Values fs) := do
  let draft ← Draft.putAll depth fs stop members (Draft.empty fs)
  match draft.finish? with
  | some values => .ok values
  | none => .error .mismatched

def values (fs : List Field) : Codec (Values fs) where
  encode vs := .object (members fs vs)
  decode
    | 0, .array _ _ | 0, .object _ _ => .error .malformed
    | depth + 1, .array items stop => decodeItems depth stop fs items
    | depth + 1, .object members stop => decodeMembers depth fs members stop
    | _, w => .error (Codec.unexpected w)

/-- A type that holds one value for each field. -/
def codec (fs : List Field) (toValues : α → Values fs) (ofValues : Values fs → α) : Codec α :=
  (values fs).imap ofValues toValues

end Record

def Codec.pair (a : Codec α) (b : Codec β) : Codec (α × β) where
  encode p := .array [a.encode p.1, b.encode p.2]
  decode
    | 0, .array _ _ => .error .malformed
    | depth + 1, .array items stop =>
      (Record.decodeItems depth stop [.required "first" a, .required "second" b] items).map
        fun (x, y, ()) => (x, y)
    | _, w => .error (unexpected w)

end CorrelationPlot.Json
