import CorrelationPlot.Json.Written
import CorrelationPlot.Number.Literal
import CorrelationPlot.Text.Characters

/-!
Reading JSON text. Every text has a reading; what is wrong with it stays in the tree. A reading that
had to stop leaves no rest behind.
-/
namespace CorrelationPlot.Json

def isBlank (c : Char) : Bool := c = ' ' || c = '\t' || c = '\n' || c = '\r'

def skipBlank (cs : List Char) : List Char := cs.dropWhile isBlank

/-- What was read, and what is left of the text unless reading had to stop. -/
abbrev Reading (α : Type) := α × Option (List Char)

def stopAt (s : Stop) : Reading Written := (.stopped s, none)

def readWord (w : Written) : List Char → List Char → Reading Written
  | [], rest => (w, some rest)
  | _ :: _, [] => stopAt (.both .truncated)
  | l :: ls, c :: rest => if l = c then readWord w ls rest else stopAt (.both .malformed)

/-- Digits are needed here. A skipping reader does not tell a missing digit from a wrong one. -/
def missingDigit : List Char → Stop
  | [] => ⟨.truncated, .malformed⟩
  | _ :: _ => .both .malformed

def readWhole (cs : List Char) : Except Stop (List Char × List Char) :=
  match Digits.span cs with
  | ([], rest) => .error (missingDigit rest)
  | ('0' :: _ :: _, _) => .error (.both .malformed)
  | (ds, rest) => .ok (ds, rest)

def readFraction : List Char → Except Stop (Option (List Char) × List Char)
  | '.' :: rest =>
    match Digits.span rest with
    | ([], rest) => .error (missingDigit rest)
    | (ds, rest) => .ok (some ds, rest)
  | rest => .ok (none, rest)

def readExponent (cs : List Char) : Except Stop (Option Int × List Char) :=
  match cs with
  | c :: rest =>
    if c = 'e' ∨ c = 'E' then
      let (negative, rest) := Literal.readSign rest
      match Digits.span rest with
      | ([], rest) => .error (missingDigit rest)
      | (ds, rest) =>
        .ok (some (if negative then -(Digits.value ds : Int) else Digits.value ds), rest)
    else .ok (none, cs)
  | [] => .ok (none, cs)

/-- Digits alone are an integer if 64 bits hold it, except minus zero. -/
def numberValue (negative : Bool) (whole : List Char) (fraction : Option (List Char))
    (exponent : Option Int) : Option Number :=
  let float := Number.ofFloat? (Literal.toFloat negative ⟨whole, fraction.getD [], exponent.getD 0⟩)
  match fraction, exponent with
  | none, none =>
    let n := Digits.value whole
    if negative && n = 0 then float
    else (Number.ofInt? (if negative then -(n : Int) else n)).or float
  | _, _ => float

def readUnsigned (negative : Bool) (cs : List Char) : Except Stop (Option Number × List Char) := do
  let (whole, rest) ← readWhole cs
  let (fraction, rest) ← readFraction rest
  let (exponent, rest) ← readExponent rest
  .ok (numberValue negative whole fraction exponent, rest)

def readNumber (cs : List Char) : Reading Written :=
  let result := match cs with
    | '-' :: rest => readUnsigned true rest
    | rest => readUnsigned false rest
  match result with
  | .ok (n, rest) => (.number n, some rest)
  | .error s => stopAt s

/-- A piece of quoted text: a character, or a code unit given by four hexadecimal digits. -/
inductive Piece where
  | char (c : Char)
  | unit (n : Nat)

/-- Four hexadecimal digits. A text that ends within four bytes is too short for them. -/
def readUnit (cs : List Char) : Except Fault Nat :=
  match cs with
  | a :: b :: c :: d :: _ =>
    match Hex.value? a, Hex.value? b, Hex.value? c, Hex.value? d with
    | some a, some b, some c, some d => .ok (a * 4096 + b * 256 + c * 16 + d)
    | _, _, _, _ => .error .malformed
  | _ => .error (if (String.ofList cs).utf8ByteSize < 4 then .truncated else .malformed)

def simpleEscape? (c : Char) : Option Char :=
  if c = '"' ∨ c = '\\' ∨ c = '/' then some c
  else if c = 'b' then some (Char.ofNat 8)
  else if c = 'f' then some (Char.ofNat 12)
  else if c = 'n' then some '\n'
  else if c = 'r' then some '\r'
  else if c = 't' then some '\t'
  else none

/-- The pieces up to the closing quote, and what follows it or the fault that came before it. -/
def readPieces : List Char → List Piece × Except Fault (List Char)
  | [] => ([], .error .truncated)
  | '"' :: rest => ([], .ok rest)
  | '\\' :: 'u' :: cs =>
    match cs, readUnit cs with
    | _ :: _ :: _ :: _ :: rest, .ok n =>
      let (pieces, result) := readPieces rest
      (.unit n :: pieces, result)
    | _, .error f => ([], .error f)
    | _, .ok _ => ([], .error .malformed)
  | ['\\'] => ([], .error .truncated)
  | '\\' :: c :: rest =>
    match simpleEscape? c with
    | some c => let (pieces, result) := readPieces rest; (.char c :: pieces, result)
    | none => ([], .error .malformed)
  | c :: rest =>
    if c.toNat < 32 then ([], .error .malformed)
    else let (pieces, result) := readPieces rest; (.char c :: pieces, result)

/-- The characters that pieces denote. A leading surrogate needs a trailing one behind it, and
`atEnd` says what it means when nothing is behind it. -/
def resolve (atEnd : Fault) : List Piece → Except Fault (List Char)
  | [] => .ok []
  | .char c :: rest => (resolve atEnd rest).map (c :: ·)
  | .unit n :: rest =>
    if 0xDC00 ≤ n ∧ n ≤ 0xDFFF then .error .malformed
    else if 0xD800 ≤ n ∧ n ≤ 0xDBFF then
      match rest with
      | [] => .error atEnd
      | .unit m :: rest =>
        if 0xDC00 ≤ m ∧ m ≤ 0xDFFF then
          (resolve atEnd rest).map (Char.ofNat (0x10000 + (n - 0xD800) * 1024 + (m - 0xDC00)) :: ·)
        else .error .malformed
      | .char _ :: _ => .error .malformed
    else (resolve atEnd rest).map (Char.ofNat n :: ·)

def readQuoted (cs : List Char) : Except Stop (Except Fault String × List Char) :=
  match readPieces cs with
  | (pieces, .ok rest) => .ok ((resolve .malformed pieces).map String.ofList, rest)
  | (pieces, .error f) =>
    match resolve f pieces with
    | .ok _ => .error (.both f)
    | .error g => .error ⟨g, f⟩

mutual

/-- Reads one value and the blanks before it. The fuel bounds the nesting of calls; twice the length
of the text is always enough. -/
def readValue : Nat → List Char → Reading Written
  | 0, _ => stopAt (.both .truncated)
  | fuel + 1, cs =>
    match skipBlank cs with
    | [] => stopAt (.both .truncated)
    | '"' :: rest =>
      match readQuoted rest with
      | .ok (s, rest) => (.string s, some rest)
      | .error s => stopAt s
    | '[' :: rest =>
      match skipBlank rest with
      | [] => (.array [] (some (.both .truncated)), none)
      | ']' :: rest => (.array [] none, some rest)
      | rest =>
        let ((items, stop), rest) := readItems fuel rest
        (.array items stop, rest)
    | '\x7b' :: rest =>
      match skipBlank rest with
      | '\x7d' :: rest => (.object [] none, some rest)
      | rest =>
        let ((members, stop), rest) := readMembers fuel rest
        (.object members stop, rest)
    | 'n' :: rest => readWord .null ['u', 'l', 'l'] rest
    | 't' :: rest => readWord (.bool true) ['r', 'u', 'e'] rest
    | 'f' :: rest => readWord (.bool false) ['a', 'l', 's', 'e'] rest
    | c :: rest =>
      if c = '-' ∨ Digits.isDigit c then readNumber (c :: rest) else stopAt (.both .malformed)

/-- Reads items up to the closing bracket. Behind a comma there is always another item. -/
def readItems : Nat → List Char → Reading (List Written × Option Stop)
  | 0, _ => (([], some (.both .truncated)), none)
  | fuel + 1, cs =>
    match readValue fuel cs with
    | (w, none) => (([w], none), none)
    | (w, some rest) =>
      match skipBlank rest with
      | [] => (([w], some (.both .truncated)), none)
      | ']' :: rest => (([w], none), some rest)
      | ',' :: rest =>
        let ((ws, stop), rest) := readItems fuel rest
        ((w :: ws, stop), rest)
      | _ :: _ => (([w], some (.both .malformed)), none)

def readMembers : Nat → List Char → Reading (List (Except Fault String × Written) × Option Stop)
  | 0, _ => (([], some (.both .truncated)), none)
  | fuel + 1, cs =>
    match skipBlank cs with
    | [] => (([], some (.both .truncated)), none)
    | '"' :: rest =>
      match readQuoted rest with
      | .error s => (([], some s), none)
      | .ok (key, rest) =>
        match skipBlank rest with
        | [] => (([(key, .stopped (.both .truncated))], none), none)
        | ':' :: rest =>
          match readValue fuel rest with
          | (w, none) => (([(key, w)], none), none)
          | (w, some rest) =>
            match skipBlank rest with
            | [] => (([(key, w)], some (.both .truncated)), none)
            | '\x7d' :: rest => (([(key, w)], none), some rest)
            | ',' :: rest =>
              let ((ms, stop), rest) := readMembers fuel rest
              (((key, w) :: ms, stop), rest)
            | _ :: _ => (([(key, w)], some (.both .malformed)), none)
        | _ :: _ => (([(key, .stopped (.both .malformed))], none), none)
    | _ :: _ => (([], some (.both .malformed)), none)

end

structure Document where
  value : Written
  trailing : Bool

def Document.ofText (text : String) : Document :=
  let cs := text.toList
  match readValue (2 * cs.length + 2) cs with
  | (w, none) => ⟨w, false⟩
  | (w, some rest) => ⟨w, !(skipBlank rest).isEmpty⟩

def maxDepth : Nat := 127

/-- Judges the value first and what follows it last. -/
def Document.read (d : Document) (decode : Nat → Written → Except Fault α) : Except Fault α := do
  let a ← decode maxDepth d.value
  if d.trailing then .error .malformed else .ok a

/-- The value of a text that is sound JSON throughout. -/
def parse (text : String) : Except Fault Json := (Document.ofText text).read Written.toJson

end CorrelationPlot.Json
