import CorrelationPlot.Proofs.Json.Number
import CorrelationPlot.Series.Cell

/-!
Cells from text. The kind of a cell follows from its text without the blanks around it: an integer
is read as it is written, a literal as the value nearest to it, and a text that is none of them, or
whose value is not finite, is kept.
-/
namespace CorrelationPlot

namespace Blank

/-- Behind the blanks in front stands no blank, also once the blanks at the end are gone. -/
theorem dropWhile_trim (cs : List Char) : (trim cs).dropWhile isBlank = trim cs := by
  obtain ⟨behind, split⟩ : trim cs <+: cs.dropWhile isBlank := List.rdropWhile_prefix isBlank _
  cases inner : trim cs with
  | nil => rfl
  | cons c more =>
      rw [inner] at split
      have kept : (c :: (more ++ behind)).dropWhile isBlank = c :: (more ++ behind) := by
        rw [← List.cons_append, split]
        exact List.dropWhile_idempotent isBlank cs
      rw [List.dropWhile_cons_of_neg]
      intro blank
      exact List.dropWhile_eq_self_iff.mp kept (by simp) blank

theorem trim_trim (cs : List Char) : trim (trim cs) = trim cs := by
  rw [trim, dropWhile_trim]
  exact List.rdropWhile_idempotent isBlank _

theorem trim_of_visible {cs : List Char} (h : ∀ c ∈ cs, isBlank c = false) : trim cs = cs := by
  have front : cs.dropWhile isBlank = cs :=
    List.dropWhile_eq_self_iff.mpr fun filled => by simp [h _ (List.getElem_mem filled)]
  have back : cs.rdropWhile isBlank = cs :=
    List.rdropWhile_eq_self_iff.mpr fun filled => by simp [h _ (List.getLast_mem filled)]
  rw [trim, front]
  exact back

theorem isBlank_of_isDigit {c : Char} (h : c.isDigit = true) : isBlank c = false := by
  have digit : 48 ≤ c.toNat ∧ c.toNat ≤ 57 := Digits.isDigit_iff.mp h
  simp only [isBlank, ranges, List.any_cons, List.any_nil, Bool.or_false, Bool.or_eq_false_iff,
    Bool.and_eq_false_iff, decide_eq_false_iff_not]
  omega

end Blank

theorem Binary64.isFinite_infinity (negative : Bool) : isFinite (infinity negative) = false := by
  cases negative <;> decide

namespace Cell
open Literal

/-- An integer that has 64 bits with its sign. -/
def Signed64 (i : Int) : Prop := -2 ^ 63 ≤ i ∧ i < 2 ^ 63

instance : DecidablePred Signed64 := fun _ => inferInstanceAs (Decidable (_ ∧ _))

theorem Signed64.inRange {i : Int} (h : Signed64 i) :
    -0x8000000000000000 ≤ i ∧ i < UInt64.size := by
  have size : UInt64.size = 2 ^ 64 := rfl
  rw [Signed64] at h
  omega

/-- Digits behind an optional sign. -/
inductive IntegerText : List Char → Int → Prop
  | intro {sign ds : List Char} {negative : Bool} : SignText sign negative → Run ds → ds ≠ [] →
      IntegerText (sign ++ ds) (if negative then -(Digits.value ds : Int) else Digits.value ds)

/-- A literal, or in any case a name of what is no finite number, behind an optional sign. -/
inductive RealText : List Char → Float → Prop
  | literal {sign digits : List Char} {negative : Bool} {l : Literal} :
      SignText sign negative → LiteralText digits l →
      RealText (sign ++ digits) (l.toFloat negative)
  | infinity {sign name : List Char} {negative : Bool} : SignText sign negative →
      name.map Char.toLower = "inf".toList ∨ name.map Char.toLower = "infinity".toList →
      RealText (sign ++ name) (Binary64.infinity negative)
  | nan {sign name : List Char} {negative : Bool} : SignText sign negative →
      name.map Char.toLower = "nan".toList → RealText (sign ++ name) Binary64.nan

/-- Neither empty nor a truth value. -/
structure Plain (t : List Char) : Prop where
  filled : t ≠ []
  notTrue : t ≠ "true".toList
  notFalse : t ≠ "false".toList

/-- The cell of a text without blanks around it. -/
inductive Denotes : List Char → Cell → Prop
  | null : Denotes [] null
  | true : Denotes "true".toList (bool true)
  | false : Denotes "false".toList (bool false)
  | integer {t : List Char} {i : Int} {inRange : -0x8000000000000000 ≤ i ∧ i < UInt64.size} :
      IntegerText t i → Signed64 i → Denotes t (number (.int i inRange))
  | real {t : List Char} {x : Float} {finite : Binary64.isFinite x} :
      (∀ i, IntegerText t i → ¬ Signed64 i) → RealText t x → Denotes t (number (.float x finite))
  | text {t : List Char} : Plain t → (∀ i, IntegerText t i → ¬ Signed64 i) →
      (∀ x, RealText t x → ¬ Binary64.isFinite x) → Denotes t (text (String.ofList t))

theorem readSign_whole {sign digits : List Char} {negative : Bool} {l : Literal}
    (h : SignText sign negative) (literal : LiteralText digits l) :
    readSign (sign ++ digits) = (negative, digits) := by
  simpa using readSign_literal h literal []

theorem int?_of_text {cs : List Char} {i : Int} (h : IntegerText cs i) :
    int? cs = if i < 2 ^ 63 then Json.Number.ofInt? i else none := by
  obtain ⟨hsign, run, filled⟩ := h
  have all : List.all _ Digits.isDigit = true := List.all_eq_true.mpr run
  have signed := readSign_whole hsign (.of_digits run filled)
  simp only [int?, signed, if_pos (And.intro filled all)]
  rfl

theorem int?_eq_some {cs : List Char} {n : Json.Number} :
    int? cs = some n ↔ ∃ i inRange, n = .int i inRange ∧ IntegerText cs i ∧ Signed64 i := by
  constructor
  · intro h
    obtain ⟨negative, ds, signed⟩ : ∃ negative ds, readSign cs = (negative, ds) := ⟨_, _, rfl⟩
    obtain ⟨sign, hsign, rfl⟩ := readSign_sound signed
    simp only [int?, signed] at h
    split at h
    · next digits =>
      have written := IntegerText.intro hsign (List.all_eq_true.mp digits.2) digits.1
      obtain ⟨small, h⟩ := Option.ite_none_right_eq_some.mp h
      obtain ⟨inRange, rfl⟩ := Json.Number.ofInt?_eq_some.mp h
      exact ⟨_, inRange, rfl, written, inRange.1, small⟩
    · cases h
  · rintro ⟨i, inRange, rfl, written, -, small⟩
    rw [int?_of_text written, if_pos small]
    exact Json.Number.ofInt?_eq_some.mpr ⟨inRange, rfl⟩

theorem float?_of_name {sign name : List Char} {negative : Bool} {d : Char} {ds : List Char}
    (hsign : SignText sign negative) (named : name.map Char.toLower = d :: ds)
    (letter : d.isAlpha = true) : float? (sign ++ name) = none := by
  obtain ⟨c, more, rfl, lower, -⟩ := List.map_eq_cons_iff.mp named
  have alpha : c.isAlpha = true := isAlpha_of_toLower lower letter
  simp only [float?, readSign_letter hsign alpha, read_letter alpha]

theorem float?_of_text {cs : List Char} {x : Float} (h : RealText cs x) :
    float? cs = Json.Number.ofFloat? x := by
  cases h with
  | @literal sign digits negative l hsign hl =>
      have read : Literal.read digits = .ok (l, []) := by
        have closes : Closes [] := by simp [Closes]
        simpa using read_append hl closes
      simp only [float?, readSign_whole hsign hl, read]
  | infinity hsign name =>
      rw [Json.Number.ofFloat?_eq_none (Binary64.isFinite_infinity _)]
      cases name with
      | inl short => exact float?_of_name hsign short (by decide)
      | inr long => exact float?_of_name hsign long (by decide)
  | nan hsign name =>
      rw [Json.Number.ofFloat?_eq_none (by decide)]
      exact float?_of_name hsign name (by decide)

theorem float?_eq_some {cs : List Char} {n : Json.Number} :
    float? cs = some n ↔ ∃ x finite, n = .float x finite ∧ RealText cs x := by
  constructor
  · intro h
    obtain ⟨negative, unsigned, signed⟩ : ∃ negative u, readSign cs = (negative, u) := ⟨_, _, rfl⟩
    obtain ⟨sign, hsign, rfl⟩ := readSign_sound signed
    simp only [float?, signed] at h
    split at h
    · next l read =>
      obtain ⟨digits, hl, rfl⟩ := read_sound read
      obtain ⟨finite, rfl⟩ := Json.Number.ofFloat?_eq_some.mp h
      rw [List.append_nil]
      exact ⟨_, finite, rfl, .literal hsign hl⟩
    · cases h
  · rintro ⟨x, finite, rfl, written⟩
    rw [float?_of_text written]
    exact Json.Number.ofFloat?_eq_some.mpr ⟨finite, rfl⟩

/-- An integer is a literal too, and its value the nearest one. Only zero has two signs. -/
theorem IntegerText.real {cs : List Char} {i : Int} (h : IntegerText cs i) :
    ∃ negative, RealText cs (Binary64.nearest negative i.natAbs 1) ∧
      (i ≠ 0 → negative = decide (i < 0)) := by
  obtain @⟨sign, ds, negative, hsign, run, filled⟩ := h
  have value : (Literal.mk ds [] 0).toFloat negative =
      Binary64.nearest negative (Digits.value ds) 1 := by
    rw [Literal.toFloat, Decimal.toFloat_eq]
    simp [Literal.decimal, Decimal.word, Decimal.ratio, Decimal.tenTo, Binary64.nearest]
  refine ⟨negative, ?_, ?_⟩
  · have size : (if negative then -(Digits.value ds : Int) else Digits.value ds).natAbs =
        Digits.value ds := by
      cases negative <;> simp
    rw [size, ← value]
    exact .literal hsign (.of_digits run filled)
  · intro nonzero
    cases negative <;> simp at nonzero ⊢
    omega

theorem Plain.of_first {c : Char} {cs : List Char} (h : c ≠ 't' ∧ c ≠ 'f') : Plain (c :: cs) where
  filled := List.cons_ne_nil c cs
  notTrue := fun spelled => h.1 (List.cons.inj spelled).1
  notFalse := fun spelled => h.2 (List.cons.inj spelled).1

theorem Plain.of_sign {sign behind : List Char} {negative : Bool} (h : SignText sign negative)
    (plain : Plain behind) : Plain (sign ++ behind) := by
  cases h with
  | none => exact plain
  | plus => exact .of_first (by decide)
  | minus => exact .of_first (by decide)

theorem Plain.of_name {name : List Char} {d : Char} {ds : List Char}
    (named : name.map Char.toLower = d :: ds) (h : d ≠ 't' ∧ d ≠ 'f') : Plain name := by
  obtain ⟨c, more, rfl, lower, -⟩ := List.map_eq_cons_iff.mp named
  apply Plain.of_first
  refine ⟨?_, ?_⟩ <;> rintro rfl
  · exact h.1 lower.symm
  · exact h.2 lower.symm

theorem RealText.plain {t : List Char} {x : Float} (h : RealText t x) : Plain t := by
  cases h with
  | literal hsign hl =>
      obtain ⟨c, more, rfl, first⟩ := hl.begins
      refine .of_sign hsign (.of_first ⟨?_, ?_⟩) <;> rintro rfl <;> exact absurd first (by decide)
  | infinity hsign name =>
      cases name with
      | inl short => exact .of_sign hsign (.of_name short (by decide))
      | inr long => exact .of_sign hsign (.of_name long (by decide))
  | nan hsign name => exact .of_sign hsign (.of_name name (by decide))

theorem IntegerText.plain {t : List Char} {i : Int} (h : IntegerText t i) : Plain t := by
  obtain ⟨negative, real, -⟩ := h.real
  exact real.plain

theorem int?_eq_none {t : List Char} (h : ∀ i, IntegerText t i → ¬ Signed64 i) :
    int? t = none := by
  by_contra found
  obtain ⟨n, found⟩ := Option.ne_none_iff_exists'.mp found
  obtain ⟨i, -, -, written, signed⟩ := int?_eq_some.mp found
  exact h i written signed

theorem float?_eq_none {t : List Char} (h : ∀ x, RealText t x → ¬ Binary64.isFinite x) :
    float? t = none := by
  by_contra found
  obtain ⟨n, found⟩ := Option.ne_none_iff_exists'.mp found
  obtain ⟨x, finite, -, written⟩ := float?_eq_some.mp found
  exact h x written finite

section
variable {raw : String} {t : List Char} (trimmed : Blank.trim raw.toList = t)
include trimmed

theorem ofText_plain (plain : Plain t) :
    ofText raw = (((int? t).or (float? t)).map number).getD (text (String.ofList t)) := by
  have notTrue : t ≠ ['t', 'r', 'u', 'e'] := plain.notTrue
  have notFalse : t ≠ ['f', 'a', 'l', 's', 'e'] := plain.notFalse
  rw [ofText, trimmed, if_neg plain.filled, if_neg notTrue, if_neg notFalse]
  cases (int? t).or (float? t) <;> rfl

theorem ofText_of_denotes {c : Cell} (h : Denotes t c) : ofText raw = c := by
  cases h with
  | null | true | false =>
      rw [ofText, trimmed]
      rfl
  | integer written signed =>
      have found := int?_eq_some.mpr ⟨_, signed.inRange, rfl, written, signed⟩
      rw [ofText_plain trimmed written.plain, found]
      rfl
  | @real _ x finite none written =>
      -- The integer is tried first, so it matters that there is none.
      have found := float?_eq_some.mpr ⟨x, finite, rfl, written⟩
      rw [ofText_plain trimmed written.plain, int?_eq_none none, found]
      rfl
  | text plain none infinite =>
      rw [ofText_plain trimmed plain, int?_eq_none none, float?_eq_none infinite]
      rfl

end

theorem exists_denotes (t : List Char) : ∃ c, Denotes t c := by
  by_cases integer : ∃ i, IntegerText t i ∧ Signed64 i
  · obtain ⟨i, written, signed⟩ := integer
    exact ⟨number (.int i signed.inRange), .integer written signed⟩
  have none : ∀ i, IntegerText t i → ¬ Signed64 i := fun i written signed =>
    integer ⟨i, written, signed⟩
  by_cases real : ∃ x, RealText t x ∧ Binary64.isFinite x
  · obtain ⟨x, written, finite⟩ := real
    exact ⟨number (.float x finite), .real none written⟩
  by_cases plain : Plain t
  · exact ⟨_, .text plain none fun x written finite => real ⟨x, written, finite⟩⟩
  by_cases empty : t = []
  · exact ⟨null, empty ▸ .null⟩
  by_cases yes : t = "true".toList
  · exact ⟨bool true, yes ▸ .true⟩
  by_cases no : t = "false".toList
  · exact ⟨bool false, no ▸ .false⟩
  exact absurd ⟨empty, yes, no⟩ plain

theorem ofText_eq_iff {raw : String} {c : Cell} :
    ofText raw = c ↔ Denotes (Blank.trim raw.toList) c := by
  constructor
  · rintro rfl
    obtain ⟨c, denotes⟩ := exists_denotes (Blank.trim raw.toList)
    rwa [ofText_of_denotes rfl denotes]
  · exact ofText_of_denotes rfl

theorem text_of_infinite {raw : String} {x : Float} (h : RealText (Blank.trim raw.toList) x)
    (infinite : ¬ Binary64.isFinite x) : ofText raw = text (Blank.trimText raw) := by
  have missing : float? (Blank.trim raw.toList) = none := by
    rw [float?_of_text h, Json.Number.ofFloat?_eq_none (Bool.eq_false_iff.mpr infinite)]
  have no_real (y : Float) (written : RealText (Blank.trim raw.toList) y) :
      ¬ Binary64.isFinite y := by
    intro finite
    have found := float?_eq_some.mpr ⟨y, finite, rfl, written⟩
    cases missing.symm.trans found
  -- The text of an integer of 64 bits has a finite value besides.
  refine ofText_eq_iff.mpr (.text h.plain (fun i written signed => ?_) no_real)
  obtain ⟨negative, real, -⟩ := written.real
  refine no_real _ real (Binary64.isFinite_nearest_int negative ?_)
  rw [Signed64] at signed
  omega

theorem IntegerText.unique {t : List Char} {i j : Int} (hi : IntegerText t i)
    (hj : IntegerText t j) : i = j := by
  obtain @⟨sign, ds, negative, hsign, run, filled⟩ := hi
  generalize spelled : sign ++ ds = t at hj
  obtain @⟨sign', ds', negative', hsign', run', filled'⟩ := hj
  have same := readSign_whole hsign (.of_digits run filled)
  rw [spelled, readSign_whole hsign' (.of_digits run' filled')] at same
  obtain ⟨rfl, rfl⟩ := Prod.mk.inj same
  rfl

/-- A great integer is not cut to 64 bits. -/
theorem real_of_great {t : List Char} {i : Int} (h : IntegerText t i) (great : ¬ Signed64 i) :
    RealText t (Binary64.ofInt i) := by
  obtain ⟨negative, real, sign⟩ := h.real
  have nonzero : i ≠ 0 := by
    rintro rfl
    exact great (by decide)
  rwa [sign nonzero] at real

theorem integerText_ofInt (i : Int) : IntegerText (Digits.ofInt i) i := by
  have written {sign : List Char} {negative : Bool} (hsign : SignText sign negative) :
      IntegerText (sign ++ Digits.ofNat i.natAbs)
        (if negative then -(i.natAbs : Int) else i.natAbs) := by
    have run : Run (Digits.ofNat i.natAbs) := List.all_eq_true.mp (Digits.all_isDigit_ofNat _)
    have text := IntegerText.intro hsign run (Digits.ofNat_ne_nil _)
    rwa [Digits.value_ofNat] at text
  rw [Digits.ofInt]
  split
  · next negative =>
    have value : -(i.natAbs : Int) = i := by omega
    have text := written .minus
    rwa [if_pos rfl, value] at text
  · next positive =>
    have value : (i.natAbs : Int) = i := by omega
    have text := written .none
    rwa [if_neg Bool.false_ne_true, value] at text

theorem IntegerText.visible {t : List Char} {i : Int} (h : IntegerText t i) :
    ∀ c ∈ t, Blank.isBlank c = false := by
  obtain ⟨hsign, run, -⟩ := h
  have digits := fun c hc => Blank.isBlank_of_isDigit (run c hc)
  cases hsign with
  | none => exact digits
  | plus | minus => exact List.forall_mem_cons.mpr ⟨by decide, digits⟩

/-- Every text has the cell that its grammar says: an integer of 64 bits is read as it is written, a
greater one as the value nearest to it, and what has no finite value stays the text that it is. -/
theorem denoted_by_text (raw : String) :
    (∀ c, ofText raw = c ↔ Denotes (Blank.trim raw.toList) c) ∧
      (∀ x, RealText (Blank.trim raw.toList) x → ¬ Binary64.isFinite x →
        ofText raw = text (Blank.trimText raw)) ∧
      (∀ i, IntegerText (Blank.trim raw.toList) i → ¬ Signed64 i →
        RealText (Blank.trim raw.toList) (Binary64.ofInt i) ∧
          ∀ finite, ofText raw = number (.float (Binary64.ofInt i) finite)) ∧
      ofText (Blank.trimText raw) = ofText raw ∧
      (∀ x, (ofText raw).toFloat? = some x → Binary64.isFinite x) ∧
      ∀ i, (signed : Signed64 i) → ofText (Digits.intText i) = number (.int i signed.inRange) := by
  refine ⟨fun c => ofText_eq_iff, fun x => text_of_infinite, ?_, ?_, ?_, ?_⟩
  · intro i written great
    have real := real_of_great written great
    have none (j : Int) (same : IntegerText (Blank.trim raw.toList) j) : ¬ Signed64 j :=
      fun signed => great (written.unique same ▸ signed)
    exact ⟨real, fun finite => ofText_eq_iff.mpr (.real none real)⟩
  · rw [ofText_eq_iff, Blank.trimText, String.toList_ofList, Blank.trim_trim]
    exact ofText_eq_iff.mp rfl
  · intro x given
    cases cell : ofText raw with
    | number n =>
        rw [cell] at given
        cases given
        exact n.finite_toFloat
    | null | bool _ | text _ =>
        rw [cell] at given
        cases given
  · intro i signed
    have written := integerText_ofInt i
    rw [ofText_eq_iff, Digits.intText, String.toList_ofList, Blank.trim_of_visible written.visible]
    exact .integer written signed

/-- The least integer of 64 bits, the one behind the greatest, and a name that is kept. -/
theorem denoted_at_the_bounds :
    (∃ inRange, ofText " -9223372036854775808\n" = number (.int (-2 ^ 63) inRange)) ∧
      (∃ finite, ofText "+9223372036854775808" =
        number (.float (Binary64.ofInt (2 ^ 63)) finite)) ∧
      ofText "-Infinity " = text "-Infinity" := by
  have run : Run "9223372036854775808".toList := List.all_eq_true.mp (by decide)
  have value : (Digits.value "9223372036854775808".toList : Int) = 2 ^ 63 := by decide
  have least : IntegerText (Blank.trim " -9223372036854775808\n".toList) (-2 ^ 63) := by
    have trimmed : Blank.trim " -9223372036854775808\n".toList =
      ['-'] ++ "9223372036854775808".toList := by decide
    rw [trimmed, ← value]
    exact .intro .minus run (by decide)
  have great : IntegerText (Blank.trim "+9223372036854775808".toList) (2 ^ 63) := by
    have trimmed : Blank.trim "+9223372036854775808".toList =
      ['+'] ++ "9223372036854775808".toList := by decide
    rw [trimmed, ← value]
    exact .intro .plus run (by decide)
  have endless : RealText (Blank.trim "-Infinity ".toList) (Binary64.infinity true) := by
    have trimmed : Blank.trim "-Infinity ".toList = ['-'] ++ "Infinity".toList := by decide
    rw [trimmed]
    exact .infinity .minus (.inr (by decide))
  have signed : Signed64 (-2 ^ 63) := by decide
  have finite : Binary64.isFinite (Binary64.ofInt (2 ^ 63)) :=
    Binary64.isFinite_nearest_int _ (by decide)
  obtain ⟨kinds, -⟩ := denoted_by_text " -9223372036854775808\n"
  obtain ⟨-, -, real, -⟩ := denoted_by_text "+9223372036854775808"
  obtain ⟨-, kept, -⟩ := denoted_by_text "-Infinity "
  exact ⟨⟨signed.inRange, (kinds _).mpr (.integer least signed)⟩,
    ⟨finite, (real _ great (by decide)).2 finite⟩, kept _ endless (by decide)⟩

end Cell
end CorrelationPlot
