import CorrelationPlot.Proofs.Characters
import CorrelationPlot.Proofs.Json.Number

/-!
Reading printed values. Every value has its place in the text, whatever the layout, and reading
takes exactly that text and gives the value back. The two layouts differ in the blanks between the
parts only, so one proof serves both.
-/
namespace CorrelationPlot

namespace Json
open Literal

/-- The piece as which a character is written. -/
def Piece.OfChar (c : Char) : Piece → Prop
  | .char c' => c' = c
  | .unit n => n = c.toNat ∧ n < 32

theorem readUnit_control {n : Nat} (h : n < 32) (rest : List Char) :
    readUnit ('0' :: '0' :: Hex.digit (n / 16) :: Hex.digit (n % 16) :: rest) = .ok n := by
  have zero : Hex.value? '0' = some 0 := Hex.value?_digit 0 (by decide)
  have high := Hex.value?_digit (n / 16) (by omega)
  have low := Hex.value?_digit (n % 16) (by omega)
  simp only [readUnit, zero, high, low]
  congr 1
  omega

theorem readPieces_escaped (c : Char) (rest : List Char) :
    ∃ piece, piece.OfChar c ∧
      readPieces (escaped c ++ rest) = (piece :: (readPieces rest).1, (readPieces rest).2) := by
  unfold escaped
  split
  · next h => exact ⟨.char '"', h.symm, rfl⟩
  split
  · next h => exact ⟨.char '\\', h.symm, rfl⟩
  split
  · next h => exact ⟨.char '\n', h.symm, rfl⟩
  split
  · next h => exact ⟨.char '\r', h.symm, rfl⟩
  split
  · next h => exact ⟨.char '\t', h.symm, rfl⟩
  split
  · next h => exact ⟨.char (Char.ofNat 8), h.symm, rfl⟩
  split
  · next h => exact ⟨.char (Char.ofNat 12), h.symm, rfl⟩
  split
  · next control =>
    refine ⟨.unit c.toNat, ⟨rfl, control⟩, ?_⟩
    simp only [List.cons_append, List.nil_append]
    rw [readPieces]
    exact readUnit_control control rest
  · next quote slash _ _ _ _ _ plain =>
    refine ⟨.char c, rfl, ?_⟩
    rw [List.singleton_append, readPieces, if_neg plain]
    all_goals tauto

/-- The characters that the pieces of one text denote. -/
theorem resolve_ofChar {piece : Piece} {c : Char} (h : piece.OfChar c) (atEnd : Fault)
    (rest : List Piece) : resolve atEnd (piece :: rest) = (resolve atEnd rest).map (c :: ·) := by
  cases piece with
  | char c' =>
      obtain rfl := h
      rfl
  | unit n =>
      obtain ⟨rfl, control⟩ := h
      rw [resolve.eq_def]
      simp only
      rw [if_neg (by omega), if_neg (by omega), Char.ofNat_toNat]

theorem readPieces_quoted (cs rest : List Char) :
    ∃ pieces, readPieces (cs.flatMap escaped ++ '"' :: rest) = (pieces, .ok rest) ∧
      ∀ atEnd, resolve atEnd pieces = .ok cs := by
  induction cs with
  | nil => exact ⟨[], rfl, fun _ => rfl⟩
  | cons c cs ih =>
      obtain ⟨pieces, read, denoted⟩ := ih
      obtain ⟨piece, denotes, first⟩ := readPieces_escaped c (cs.flatMap escaped ++ '"' :: rest)
      refine ⟨piece :: pieces, ?_, fun atEnd => ?_⟩
      · rw [List.flatMap_cons, List.append_assoc, first, read]
      · rw [resolve_ofChar denotes, denoted]
        rfl

/-- Quoted text reads as the text. -/
theorem readQuoted_quoted (s : String) (rest : List Char) :
    readQuoted (s.toList.flatMap escaped ++ '"' :: rest) = .ok (.ok s, rest) := by
  obtain ⟨pieces, read, denoted⟩ := readPieces_quoted s.toList rest
  simp only [readQuoted, read, denoted]
  rw [Except.map, String.ofList_toList]

/-- What stands between the parts of a text: the start of a line at each level, and a gap behind a
colon. -/
structure Spacing where
  line : Nat → List Char
  gap : List Char
  line_blank : ∀ level, ∀ c ∈ line level, isBlank c = true
  gap_blank : ∀ c ∈ gap, isBlank c = true

namespace Spacing

def none : Spacing where
  line _ := []
  gap := []
  line_blank := by simp
  gap_blank := by simp

def lines : Spacing where
  line := newline
  gap := [' ']
  line_blank level c hc := by
    rcases List.mem_cons.mp hc with rfl | hc
    · rfl
    · rw [List.eq_of_mem_replicate hc]
      rfl
  gap_blank c hc := by
    rw [List.mem_singleton.mp hc]
    rfl

@[simp] theorem none_line (level : Nat) : none.line level = [] := rfl

@[simp] theorem none_gap : none.gap = [] := rfl

@[simp] theorem lines_line (level : Nat) : lines.line level = newline level := rfl

@[simp] theorem lines_gap : lines.gap = [' '] := rfl

end Spacing

section
variable (sp : Spacing)

mutual

/-- The text of a value that stands at `level`. -/
def spaced (level : Nat) : Json → List Char
  | .array (j :: js) =>
    '[' :: (sp.line (level + 1) ++ (spaced (level + 1) j ++ spacedItems level js))
  | .object ((k, j) :: ms) =>
    '\x7b' :: (sp.line (level + 1) ++
      (quoted k ++ ':' :: (sp.gap ++ (spaced (level + 1) j ++ spacedMembers level ms))))
  | .array [] => ['[', ']']
  | .object [] => ['\x7b', '\x7d']
  | .null => ['n', 'u', 'l', 'l']
  | .bool true => ['t', 'r', 'u', 'e']
  | .bool false => ['f', 'a', 'l', 's', 'e']
  | .number n => n.text
  | .string s => quoted s

/-- The items after the first, and the closing bracket. -/
def spacedItems (level : Nat) : List Json → List Char
  | [] => sp.line level ++ [']']
  | j :: js => ',' :: (sp.line (level + 1) ++ (spaced (level + 1) j ++ spacedItems level js))

def spacedMembers (level : Nat) : List (String × Json) → List Char
  | [] => sp.line level ++ ['\x7d']
  | (k, j) :: ms =>
    ',' :: (sp.line (level + 1) ++
      (quoted k ++ ':' :: (sp.gap ++ (spaced (level + 1) j ++ spacedMembers level ms))))

end
end

mutual

theorem spaced_none (level : Nat) : (j : Json) → spaced .none level j = compact j
  | .null | .bool true | .bool false | .number _ | .string _ | .array [] | .object [] => rfl
  | .array (j :: js) => by simp [spaced, compact, spaced_none _ j, spacedItems_none _ js]
  | .object ((k, j) :: ms) => by
    simp [spaced, compact, spaced_none _ j, spacedMembers_none _ ms]

theorem spacedItems_none (level : Nat) :
    (js : List Json) → spacedItems .none level js = compactItems js
  | [] => rfl
  | j :: js => by simp [spacedItems, compactItems, spaced_none _ j, spacedItems_none _ js]

theorem spacedMembers_none (level : Nat) :
    (ms : List (String × Json)) → spacedMembers .none level ms = compactMembers ms
  | [] => rfl
  | (k, j) :: ms => by
    simp [spacedMembers, compactMembers, spaced_none _ j, spacedMembers_none _ ms]

end

mutual

theorem spaced_lines (level : Nat) : (j : Json) → spaced .lines level j = indented level j
  | .null | .bool true | .bool false | .number _ | .string _ | .array [] | .object [] => rfl
  | .array (j :: js) => by simp [spaced, indented, spaced_lines _ j, spacedItems_lines _ js]
  | .object ((k, j) :: ms) => by
    simp [spaced, indented, spaced_lines _ j, spacedMembers_lines _ ms]

theorem spacedItems_lines (level : Nat) :
    (js : List Json) → spacedItems .lines level js = indentedItems level js
  | [] => rfl
  | j :: js => by simp [spacedItems, indentedItems, spaced_lines _ j, spacedItems_lines _ js]

theorem spacedMembers_lines (level : Nat) :
    (ms : List (String × Json)) → spacedMembers .lines level ms = indentedMembers level ms
  | [] => rfl
  | (k, j) :: ms => by
    simp [spacedMembers, indentedMembers, spaced_lines _ j, spacedMembers_lines _ ms]

end

theorem closes_cons {c : Char} (h : c = ',' ∨ c = ']' ∨ c = '\x7d' ∨ isBlank c = true)
    (rest : List Char) : Closes (c :: rest) := by
  intro c' hc
  obtain rfl := Option.some.inj hc
  simp only [isBlank, Bool.or_eq_true, decide_eq_true_eq] at h
  rcases h with rfl | rfl | rfl | ((rfl | rfl) | rfl) | rfl <;> decide

theorem closes_blanks {blanks : List Char} (blank : ∀ c ∈ blanks, isBlank c = true)
    {rest : List Char} (stop : Closes rest) : Closes (blanks ++ rest) := by
  cases blanks with
  | nil => exact stop
  | cons c blanks => exact closes_cons (.inr (.inr (.inr (blank c List.mem_cons_self)))) _

theorem skipBlank_append {blanks : List Char} (blank : ∀ c ∈ blanks, isBlank c = true) {c : Char}
    (ink : isBlank c = false) (rest : List Char) : skipBlank (blanks ++ c :: rest) = c :: rest := by
  apply (takeWhile_dropWhile_append blank _).2
  intro c' hc
  exact Option.some.inj hc ▸ ink

theorem skipBlank_ink {c : Char} (ink : isBlank c = false) (rest : List Char) :
    skipBlank (c :: rest) = c :: rest :=
  skipBlank_append (List.forall_mem_nil _) ink rest

theorem isBlank_number {c : Char} (h : c = '-' ∨ c.isDigit = true) : isBlank c = false := by
  by_contra blank
  simp only [isBlank, Bool.not_eq_false, Bool.or_eq_true, decide_eq_true_eq] at blank
  rcases blank with ((rfl | rfl) | rfl) | rfl <;> exact absurd h (by decide)

theorem readValue_number (n : Number) (fuel : Nat) {rest : List Char} (stop : Closes rest) :
    readValue (fuel + 1) (n.text ++ rest) = (.number (some n), some rest) := by
  have number := readNumber_text n stop
  obtain ⟨c, more, text, first⟩ := head_text n
  have skip := skipBlank_ink (isBlank_number first) (more ++ rest)
  rw [text] at number ⊢
  rw [readValue]
  simp only [List.cons_append] at number ⊢
  rw [skip]
  have apart : ∀ d, ¬(d = '-' ∨ d.isDigit = true) → c ≠ d := by
    rintro d other rfl
    exact other first
  split
  · next h => cases h
  · next h => exact absurd (List.cons.inj h).1 (apart '"' (by decide))
  · next h => exact absurd (List.cons.inj h).1 (apart '[' (by decide))
  · next h => exact absurd (List.cons.inj h).1 (apart '\x7b' (by decide))
  · next h => exact absurd (List.cons.inj h).1 (apart 'n' (by decide))
  · next h => exact absurd (List.cons.inj h).1 (apart 't' (by decide))
  · next h => exact absurd (List.cons.inj h).1 (apart 'f' (by decide))
  · next h =>
    obtain ⟨rfl, rfl⟩ := List.cons.inj h
    exact (if_pos first).trans number

theorem readValue_blanks (fuel : Nat) {blanks : List Char} (blank : ∀ c ∈ blanks, isBlank c = true)
    {c : Char} (ink : isBlank c = false) (rest : List Char) :
    readValue fuel (blanks ++ c :: rest) = readValue fuel (c :: rest) := by
  cases fuel with
  | zero => rfl
  | succ fuel =>
      rw [readValue, readValue, skipBlank_append blank ink, skipBlank_ink ink]

theorem quoted_append (s : String) (rest : List Char) :
    quoted s ++ rest = '"' :: (s.toList.flatMap escaped ++ '"' :: rest) := by
  simp [quoted]

theorem readValue_array {fuel : Nat} {c : Char} {cs rest rest' : List Char} {items : List Written}
    (skip : skipBlank cs = c :: rest) (filled : c ≠ ']')
    (h : readItems fuel (c :: rest) = ((items, none), some rest')) :
    readValue (fuel + 1) ('[' :: cs) = (.array items none, some rest') := by
  rw [readValue]
  simp only [skipBlank_ink (c := '[') rfl, skip]
  split
  · next none => cases none
  · next empty => exact absurd (List.cons.inj empty).1 filled
  · rw [h]

theorem readValue_object {fuel : Nat} {c : Char} {cs rest rest' : List Char}
    {members : List (Except Fault String × Written)}
    (skip : skipBlank cs = c :: rest) (filled : c ≠ '\x7d')
    (h : readMembers fuel (c :: rest) = ((members, none), some rest')) :
    readValue (fuel + 1) ('\x7b' :: cs) = (.object members none, some rest') := by
  rw [readValue]
  simp only [skipBlank_ink (c := '\x7b') rfl, skip]
  split
  · next empty => exact absurd (List.cons.inj empty).1 filled
  · rw [h]

theorem readMembers_blanks (fuel : Nat) {blanks : List Char}
    (blank : ∀ c ∈ blanks, isBlank c = true) (k : String) (rest : List Char) :
    readMembers fuel (blanks ++ (quoted k ++ rest)) = readMembers fuel (quoted k ++ rest) := by
  cases fuel with
  | zero => rfl
  | succ fuel =>
      rw [quoted_append, readMembers, readMembers, skipBlank_append blank rfl, skipBlank_ink rfl]

theorem readMembers_last {fuel : Nat} {k : String} {cs rest rest' : List Char} {w : Written}
    (value : readValue fuel cs = (w, some rest)) (skip : skipBlank rest = '\x7d' :: rest') :
    readMembers (fuel + 1) (quoted k ++ ':' :: cs) = (([(.ok k, w)], none), some rest') := by
  have text := readQuoted_quoted k (':' :: cs)
  rw [quoted_append, readMembers]
  simp only [skipBlank_ink (c := '"') rfl, skipBlank_ink (c := ':') rfl, text, value, skip]

theorem readMembers_next {fuel : Nat} {k : String} {cs rest rest' rest'' : List Char} {w : Written}
    {ms : List (Except Fault String × Written)}
    (value : readValue fuel cs = (w, some rest)) (skip : skipBlank rest = ',' :: rest')
    (more : readMembers fuel rest' = ((ms, none), some rest'')) :
    readMembers (fuel + 1) (quoted k ++ ':' :: cs) = (((.ok k, w) :: ms, none), some rest'') := by
  have text := readQuoted_quoted k (':' :: cs)
  rw [quoted_append, readMembers]
  simp only [skipBlank_ink (c := '"') rfl, skipBlank_ink (c := ':') rfl, text, value, skip, more]

theorem readValue_string (fuel : Nat) (s : String) (rest : List Char) :
    readValue (fuel + 1) (quoted s ++ rest) = (.string (.ok s), some rest) := by
  have text := readQuoted_quoted s rest
  rw [quoted_append, readValue]
  simp only [skipBlank_ink (c := '"') rfl, text]

section
variable (sp : Spacing)

/-- A text begins with a character that is no blank and closes no list. -/
theorem head_spaced (level : Nat) (j : Json) :
    ∃ c more, spaced sp level j = c :: more ∧ isBlank c = false ∧ c ≠ ']' := by
  cases j with
  | number n =>
      obtain ⟨c, more, text, first⟩ := head_text n
      refine ⟨c, more, text, isBlank_number first, ?_⟩
      rintro rfl
      exact absurd first (by decide)
  | null => exact ⟨_, _, rfl, rfl, by decide⟩
  | bool b => cases b <;> exact ⟨_, _, rfl, rfl, by decide⟩
  | string s => exact ⟨_, _, rfl, rfl, by decide⟩
  | array items => cases items <;> exact ⟨_, _, rfl, rfl, by decide⟩
  | object ms => cases ms <;> exact ⟨_, _, rfl, rfl, by decide⟩

theorem closes_items (level : Nat) (js : List Json) (rest : List Char) :
    Closes (spacedItems sp level js ++ rest) := by
  cases js with
  | nil =>
      rw [spacedItems, List.append_assoc]
      exact closes_blanks (sp.line_blank level) (closes_cons (.inr (.inl rfl)) rest)
  | cons j js => exact closes_cons (.inl rfl) _

theorem closes_members (level : Nat) (ms : List (String × Json)) (rest : List Char) :
    Closes (spacedMembers sp level ms ++ rest) := by
  cases ms with
  | nil =>
      rw [spacedMembers, List.append_assoc]
      exact closes_blanks (sp.line_blank level) (closes_cons (.inr (.inr (.inl rfl))) rest)
  | cons m ms => exact closes_cons (.inl rfl) _

theorem readValue_lead (fuel level : Nat) {blanks : List Char}
    (blank : ∀ c ∈ blanks, isBlank c = true) (j : Json) (rest : List Char) :
    readValue fuel (blanks ++ (spaced sp level j ++ rest)) =
      readValue fuel (spaced sp level j ++ rest) := by
  obtain ⟨c, more, text, ink, -⟩ := head_spaced sp level j
  rw [text, List.cons_append]
  exact readValue_blanks fuel blank ink _

theorem length_spaced_pos (level : Nat) (j : Json) : 0 < (spaced sp level j).length := by
  obtain ⟨c, more, text, -⟩ := head_spaced sp level j
  rw [text]
  exact Nat.succ_pos _

theorem readValue_scalar (level : Nat) {fuel : Nat} {j : Json} {rest : List Char}
    (stop : Closes rest) (items : ∀ i is, j ≠ .array (i :: is))
    (members : ∀ m ms, j ≠ .object (m :: ms)) (enough : 2 * (spaced sp level j).length ≤ fuel) :
    readValue fuel (spaced sp level j ++ rest) = (Written.ofJson j, some rest) := by
  have filled := length_spaced_pos sp level j
  obtain ⟨fuel, rfl⟩ : ∃ n, fuel = n + 1 := ⟨fuel - 1, by omega⟩
  cases j with
  | null => rfl
  | bool b => cases b <;> rfl
  | number n => exact readValue_number n fuel stop
  | string s => exact readValue_string fuel s rest
  | array is =>
      cases is with
      | nil => rfl
      | cons i is => exact absurd rfl (items i is)
  | object ms =>
      cases ms with
      | nil => rfl
      | cons m ms => exact absurd rfl (members m ms)

mutual

/-- Fuel of twice the length is enough, since no two calls in a row take nothing from the text. -/
theorem readValue_spaced (level : Nat) {fuel : Nat} {rest : List Char} (stop : Closes rest) :
    (j : Json) → 2 * (spaced sp level j).length ≤ fuel →
      readValue fuel (spaced sp level j ++ rest) = (Written.ofJson j, some rest)
  | .array (j :: js), enough => by
    simp only [spaced, List.length_cons, List.length_append] at enough
    obtain ⟨fuel, rfl⟩ : ∃ n, fuel = n + 2 := ⟨fuel - 2, by omega⟩
    obtain ⟨c, more, text, ink, opened⟩ := head_spaced sp (level + 1) j
    have item := readValue_spaced (level + 1) (closes_items sp level js rest) j
      (show _ ≤ fuel by omega)
    have items := readItems_spaced level js item (by omega)
    rw [text] at items
    have skip := skipBlank_append (sp.line_blank (level + 1)) ink
      (more ++ (spacedItems sp level js ++ rest))
    simp only [spaced, text, List.cons_append, List.append_assoc]
    exact readValue_array skip opened items
  | .object ((k, j) :: ms), enough => by
    simp only [spaced, List.length_cons, List.length_append] at enough
    obtain ⟨fuel, rfl⟩ : ∃ n, fuel = n + 2 := ⟨fuel - 2, by omega⟩
    have item := readValue_spaced (level + 1) (closes_members sp level ms rest) j
      (show _ ≤ fuel by omega)
    rw [← readValue_lead sp fuel (level + 1) sp.gap_blank] at item
    have members := readMembers_spaced level k ms item (by omega)
    have skip := skipBlank_append (sp.line_blank (level + 1)) (c := '"') rfl
    simp only [spaced, List.cons_append, List.append_assoc]
    exact readValue_object (skip _) (by decide) members
  | .null, enough | .bool true, enough | .bool false, enough | .number _, enough
  | .string _, enough | .array [], enough | .object [], enough =>
    readValue_scalar sp level stop nofun nofun enough

theorem readItems_spaced (level : Nat) {fuel : Nat} {cs rest : List Char} {w : Written} :
    (js : List Json) → readValue fuel cs = (w, some (spacedItems sp level js ++ rest)) →
      2 * (spacedItems sp level js).length ≤ fuel →
      readItems (fuel + 1) cs = ((w :: Written.ofItems js, none), some rest)
  | [], first, _ => by
    have skip := skipBlank_append (sp.line_blank level) (c := ']') rfl rest
    rw [spacedItems, List.append_assoc] at first
    rw [readItems, first]
    simp only [List.singleton_append, skip]
    rfl
  | j :: js, first, enough => by
    simp only [spacedItems, List.length_cons, List.length_append] at enough
    obtain ⟨fuel, rfl⟩ : ∃ n, fuel = n + 1 := ⟨fuel - 1, by omega⟩
    have item := readValue_spaced (level + 1) (closes_items sp level js rest) j
      (show _ ≤ fuel by omega)
    rw [← readValue_lead sp fuel (level + 1) (sp.line_blank (level + 1))] at item
    have items := readItems_spaced level js item (by omega)
    simp only [spacedItems, List.cons_append, List.append_assoc] at first
    rw [readItems, first]
    simp only [skipBlank_ink (c := ',') rfl, items]
    rfl

theorem readMembers_spaced (level : Nat) {fuel : Nat} {cs rest : List Char} (k : String)
    {w : Written} : (ms : List (String × Json)) →
      readValue fuel cs = (w, some (spacedMembers sp level ms ++ rest)) →
      2 * (spacedMembers sp level ms).length ≤ fuel →
      readMembers (fuel + 1) (quoted k ++ ':' :: cs) =
        (((.ok k, w) :: Written.ofMembers ms, none), some rest)
  | [], first, _ => by
    have skip := skipBlank_append (sp.line_blank level) (c := '\x7d') rfl rest
    rw [spacedMembers, List.append_assoc] at first
    exact readMembers_last first skip
  | (k', j) :: ms, first, enough => by
    simp only [spacedMembers, List.length_cons, List.length_append] at enough
    obtain ⟨fuel, rfl⟩ : ∃ n, fuel = n + 1 := ⟨fuel - 1, by omega⟩
    have item := readValue_spaced (level + 1) (closes_members sp level ms rest) j
      (show _ ≤ fuel by omega)
    rw [← readValue_lead sp fuel (level + 1) sp.gap_blank] at item
    have members := readMembers_spaced level k' ms item (by omega)
    simp only [spacedMembers, List.cons_append, List.append_assoc] at first
    rw [← readMembers_blanks (fuel + 1) (sp.line_blank (level + 1))] at members
    exact readMembers_next first (skipBlank_ink rfl _) members

end
end

/-- Blanks may follow the value. -/
theorem ofText_blanks (sp : Spacing) (j : Json) {blanks : List Char}
    (blank : ∀ c ∈ blanks, isBlank c = true) :
    Document.ofText (String.ofList (spaced sp 0 j ++ blanks)) = ⟨Written.ofJson j, false⟩ := by
  have stop : Closes blanks := by
    rw [← List.append_nil blanks]
    exact closes_blanks blank nofun
  have enough : 2 * (spaced sp 0 j).length ≤ 2 * (spaced sp 0 j ++ blanks).length + 2 := by
    rw [List.length_append]
    omega
  have skipped : skipBlank blanks = [] := List.dropWhile_eq_nil_iff.mpr blank
  simp only [Document.ofText, String.toList_ofList, readValue_spaced sp 0 stop j enough, skipped]
  rfl

theorem ofText_spaced (sp : Spacing) (j : Json) :
    Document.ofText (String.ofList (spaced sp 0 j)) = ⟨Written.ofJson j, false⟩ := by
  have none : ∀ c ∈ ([] : List Char), isBlank c = true := nofun
  have read := ofText_blanks sp j none
  rwa [List.append_nil] at read

/-- The text may be a line. -/
theorem ofText_line (sp : Spacing) (j : Json) :
    Document.ofText (String.ofList (spaced sp 0 j) ++ "\n") = ⟨Written.ofJson j, false⟩ := by
  have ending : ∀ c ∈ ['\n'], isBlank c = true := List.forall_mem_singleton.mpr rfl
  rw [← ofText_blanks sp j ending, String.ofList_append]

/-- A compact text is read as the value that it shows. -/
theorem ofText_compactText (j : Json) :
    Document.ofText j.compactText = ⟨Written.ofJson j, false⟩ := by
  rw [compactText, ← spaced_none 0 j, ofText_spaced]

/-- An indented text is read as the value that it shows. -/
theorem ofText_indentedText (j : Json) :
    Document.ofText j.indentedText = ⟨Written.ofJson j, false⟩ := by
  rw [indentedText, ← spaced_lines 0 j, ofText_spaced]

mutual

/-- How many containers are open at the deepest place. -/
def nesting : Json → Nat
  | .array items => nestingItems items + 1
  | .object members => nestingMembers members + 1
  | .null | .bool _ | .number _ | .string _ => 0

def nestingItems : List Json → Nat
  | [] => 0
  | j :: js => max j.nesting (nestingItems js)

def nestingMembers : List (String × Json) → Nat
  | [] => 0
  | (_, j) :: ms => max j.nesting (nestingMembers ms)

end

mutual

theorem toJson_ofJson {depth : Nat} : (j : Json) → j.nesting ≤ depth →
    (Written.ofJson j).toJson depth = .ok j
  | .null, _ | .bool _, _ | .number _, _ | .string _, _ => by
    simp only [Written.ofJson, Written.toJson, Except.map]
  | .array items, h => by
    obtain ⟨depth, rfl⟩ := Nat.exists_eq_add_one.mpr (Nat.zero_lt_of_lt h)
    rw [Written.ofJson, Written.toJson, itemsToJson_ofItems items (Nat.le_of_succ_le_succ h)]
    rfl
  | .object members, h => by
    obtain ⟨depth, rfl⟩ := Nat.exists_eq_add_one.mpr (Nat.zero_lt_of_lt h)
    rw [Written.ofJson, Written.toJson, membersToJson_ofMembers members (Nat.le_of_succ_le_succ h)]
    rfl

theorem itemsToJson_ofItems {depth : Nat} : (js : List Json) → nestingItems js ≤ depth →
    Written.itemsToJson depth (Written.ofItems js) none = .ok js
  | [], _ => rfl
  | j :: js, h => by
    obtain ⟨first, others⟩ := Nat.max_le.mp h
    rw [Written.ofItems, Written.itemsToJson, toJson_ofJson j first, itemsToJson_ofItems js others]
    rfl

theorem membersToJson_ofMembers {depth : Nat} : (ms : List (String × Json)) →
    nestingMembers ms ≤ depth → Written.membersToJson depth (Written.ofMembers ms) none = .ok ms
  | [], _ => rfl
  | (k, j) :: ms, h => by
    obtain ⟨first, others⟩ := Nat.max_le.mp h
    rw [Written.ofMembers, Written.membersToJson, toJson_ofJson j first,
      membersToJson_ofMembers ms others]
    rfl

end

theorem read_sound (decode : Nat → Written → Except Fault α) (w : Written) :
    Document.read ⟨w, false⟩ decode = decode maxDepth w := by
  rw [Document.read]
  cases decode maxDepth w <;> rfl

/-- Printing and parsing is the identity on values that are not nested too deeply. -/
theorem parse_compactText {j : Json} (shallow : j.nesting ≤ maxDepth) :
    parse j.compactText = .ok j := by
  rw [parse, ofText_compactText, read_sound, toJson_ofJson j shallow]

theorem parse_indentedText {j : Json} (shallow : j.nesting ≤ maxDepth) :
    parse j.indentedText = .ok j := by
  rw [parse, ofText_indentedText, read_sound, toJson_ofJson j shallow]

end Json
end CorrelationPlot
