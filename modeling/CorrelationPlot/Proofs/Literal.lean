import CorrelationPlot.Number.Literal
import CorrelationPlot.Proofs.Characters

/-!
The grammar of decimal literals. The reader takes a literal whole, whatever follows, unless that
would prolong it.
-/
namespace CorrelationPlot

/-- The longest beginning of one kind ends where a character of another kind stands. -/
theorem takeWhile_dropWhile_append {p : Char → Bool} {cs rest : List Char}
    (inside : ∀ c ∈ cs, p c = true) (stop : ∀ c, rest.head? = some c → p c = false) :
    (cs ++ rest).takeWhile p = cs ∧ (cs ++ rest).dropWhile p = rest := by
  have behind : rest.takeWhile p = [] ∧ rest.dropWhile p = rest := by
    cases rest with
    | nil => exact ⟨rfl, rfl⟩
    | cons c more => simp [stop c rfl]
  rw [List.takeWhile_append_of_pos inside, List.dropWhile_append_of_pos inside, behind.1, behind.2,
    List.append_nil]
  exact ⟨rfl, rfl⟩

theorem isAlpha_iff {c : Char} : c.isAlpha = true ↔
    (65 ≤ c.toNat ∧ c.toNat ≤ 90) ∨ (97 ≤ c.toNat ∧ c.toNat ≤ 122) := by
  have upper : c.isUpper = true ↔ 65 ≤ c.toNat ∧ c.toNat ≤ 90 := decide_eq_true_iff
  have lower : c.isLower = true ↔ 97 ≤ c.toNat ∧ c.toNat ≤ 122 :=
    Bool.and_eq_true_iff.trans (and_congr decide_eq_true_iff decide_eq_true_iff)
  exact Bool.or_eq_true_iff.trans (or_congr upper lower)

theorem isDigit_of_isAlpha {c : Char} (h : c.isAlpha = true) : c.isDigit = false := by
  have digit : c.isDigit = true ↔ 48 ≤ c.toNat ∧ c.toNat ≤ 57 := Digits.isDigit_iff
  have letter := isAlpha_iff.mp h
  rw [Bool.eq_false_iff, Ne, digit]
  omega

theorem isAlpha_of_toLower {c d : Char} (h : c.toLower = d) (hd : d.isAlpha = true) :
    c.isAlpha = true := by
  by_cases capital : 65 ≤ c.toNat ∧ c.toNat ≤ 90
  · exact isAlpha_iff.mpr (.inl capital)
  · have same : c.toLower = c := dif_neg capital
    rwa [← same, h]

namespace Literal

def Run (ds : List Char) : Prop := ∀ d ∈ ds, d.isDigit = true

inductive SignText : List Char → Bool → Prop
  | none : SignText [] false
  | plus : SignText ['+'] false
  | minus : SignText ['-'] true

/-- Digits on at least one side of an optional point. -/
inductive MantissaText : List Char → List Char → List Char → Prop
  | whole {ds : List Char} : Run ds → ds ≠ [] → MantissaText ds ds []
  | point {whole fraction : List Char} : Run whole → Run fraction → whole ≠ [] ∨ fraction ≠ [] →
      MantissaText (whole ++ '.' :: fraction) whole fraction

inductive ExponentText : List Char → Int → Prop
  | none : ExponentText [] 0
  | written {mark : Char} {sign ds : List Char} {negative : Bool} :
      mark = 'e' ∨ mark = 'E' → SignText sign negative → Run ds → ds ≠ [] →
      ExponentText (mark :: (sign ++ ds))
        (if negative then -(Digits.value ds : Int) else Digits.value ds)

inductive LiteralText : List Char → Literal → Prop
  | intro {mantissa exponent whole fraction : List Char} {e : Int} :
      MantissaText mantissa whole fraction → ExponentText exponent e →
      LiteralText (mantissa ++ exponent) ⟨whole, fraction, e⟩

/-- What can stand behind a literal without being read as a part of it. -/
def Closes (rest : List Char) : Prop :=
  ∀ c, rest.head? = some c → c.isDigit = false ∧ c ≠ '.' ∧ c ≠ 'e' ∧ c ≠ 'E'

theorem span_append {ds rest : List Char} (run : Run ds)
    (stop : ∀ c, rest.head? = some c → c.isDigit = false) :
    Digits.span (ds ++ rest) = (ds, rest) := by
  obtain ⟨front, behind⟩ := takeWhile_dropWhile_append (p := Digits.isDigit) run stop
  rw [Digits.span, front, behind]

theorem span_run {cs ds rest : List Char} (h : Digits.span cs = (ds, rest)) :
    Run ds ∧ cs = ds ++ rest := by
  simp only [Digits.span, Prod.mk.injEq] at h
  obtain ⟨rfl, rfl⟩ := h
  refine ⟨?_, List.takeWhile_append_dropWhile.symm⟩
  intro d hd
  exact List.all_eq_true.mp List.all_takeWhile d hd

theorem readSign_append {sign rest : List Char} {negative : Bool} (h : SignText sign negative)
    (stop : ∀ c, rest.head? = some c → c ≠ '+' ∧ c ≠ '-') :
    readSign (sign ++ rest) = (negative, rest) := by
  cases h with
  | plus => rfl
  | minus => rfl
  | none =>
      cases rest with
      | nil => rfl
      | cons c more =>
          obtain ⟨plus, minus⟩ := stop c rfl
          simp only [List.nil_append, readSign]
          split
          · next h => exact absurd (List.cons.inj h).1 plus
          · next h => exact absurd (List.cons.inj h).1 minus
          · rfl

theorem readSign_sound {cs rest : List Char} {negative : Bool}
    (h : readSign cs = (negative, rest)) : ∃ sign, SignText sign negative ∧ cs = sign ++ rest := by
  unfold readSign at h
  split at h <;> obtain ⟨rfl, rfl⟩ := Prod.mk.inj h
  · exact ⟨_, .plus, rfl⟩
  · exact ⟨_, .minus, rfl⟩
  · exact ⟨_, .none, rfl⟩

theorem head_of_run {ds : List Char} (run : Run ds) (filled : ds ≠ []) :
    ∃ d more, ds = d :: more ∧ d.isDigit = true := by
  cases ds with
  | nil => exact absurd rfl filled
  | cons d more => exact ⟨d, more, rfl, run d List.mem_cons_self⟩

/-- A literal begins with a digit or a point. -/
theorem LiteralText.begins {token : List Char} {l : Literal} (h : LiteralText token l) :
    ∃ c more, token = c :: more ∧ (c.isDigit = true ∨ c = '.') := by
  cases h with
  | @intro _ _ whole _ _ hm _ =>
      cases hm with
      | whole run filled =>
          obtain ⟨d, more, rfl, digit⟩ := head_of_run run filled
          exact ⟨d, _, rfl, .inl digit⟩
      | point run _ _ =>
          cases whole with
          | nil => exact ⟨'.', _, rfl, .inr rfl⟩
          | cons d more => exact ⟨d, _, rfl, .inl (run d List.mem_cons_self)⟩

theorem LiteralText.of_digits {ds : List Char} (run : Run ds) (filled : ds ≠ []) :
    LiteralText ds ⟨ds, [], 0⟩ := by
  simpa using LiteralText.intro (.whole run filled) .none

theorem readSign_literal {sign digits : List Char} {negative : Bool} {l : Literal}
    (h : SignText sign negative) (literal : LiteralText digits l) (rest : List Char) :
    readSign (sign ++ (digits ++ rest)) = (negative, digits ++ rest) := by
  obtain ⟨c, more, rfl, first⟩ := literal.begins
  apply readSign_append h
  intro d hd
  obtain rfl := Option.some.inj hd
  refine ⟨?_, ?_⟩ <;> rintro rfl <;> exact absurd first (by decide)

theorem readMantissa_append {m w f rest : List Char} (h : MantissaText m w f)
    (stop : ∀ c, rest.head? = some c → c.isDigit = false ∧ c ≠ '.') :
    readMantissa (m ++ rest) = some ((w, f), rest) := by
  cases h with
  | whole run filled =>
      have span := span_append run fun c hc => (stop c hc).1
      simp only [readMantissa, span]
      split
      · next h => exact absurd (Prod.mk.inj h).1 filled
      · next h => exact absurd (Prod.mk.inj h).1 filled
      · next h =>
          obtain ⟨rfl, rfl⟩ := Prod.mk.inj h
          exact absurd rfl (stop '.' rfl).2
      · next h =>
          obtain ⟨rfl, rfl⟩ := Prod.mk.inj h
          rfl
  | point hw hf filled =>
      have front : Digits.span (w ++ '.' :: (f ++ rest)) = (w, '.' :: (f ++ rest)) :=
        span_append hw (by intro c hc; cases hc; decide)
      have back : Digits.span (f ++ rest) = (f, rest) :=
        span_append hf fun c hc => (stop c hc).1
      simp only [readMantissa, List.append_assoc, List.cons_append, front]
      cases w with
      | nil =>
          obtain ⟨d, more, rfl, -⟩ := head_of_run hf (by simpa using filled)
          simp only [back]
      | cons d more => simp only [back]

theorem readMantissa_sound {cs w f rest : List Char}
    (h : readMantissa cs = some ((w, f), rest)) : ∃ m, MantissaText m w f ∧ cs = m ++ rest := by
  unfold readMantissa at h
  split at h
  · next tail span =>
      obtain ⟨-, rfl⟩ := span_run span
      split at h
      · simp at h
      · next fraction rest' filled inner =>
          obtain ⟨run, rfl⟩ := span_run inner
          simp only [Option.some.injEq, Prod.mk.injEq] at h
          obtain ⟨⟨rfl, rfl⟩, rfl⟩ := h
          exact ⟨_, .point (by simp [Run]) run (.inr filled), rfl⟩
  · simp at h
  · next whole tail filled span =>
      obtain ⟨run, rfl⟩ := span_run span
      obtain ⟨fraction, cs, inner⟩ : ∃ ds cs, Digits.span tail = (ds, cs) := ⟨_, _, rfl⟩
      obtain ⟨run', rfl⟩ := span_run inner
      simp only [inner, Option.some.injEq, Prod.mk.injEq] at h
      obtain ⟨⟨rfl, rfl⟩, rfl⟩ := h
      exact ⟨_, .point run run' (.inl filled), by simp⟩
  · next whole tail _ filled _ span =>
      obtain ⟨run, rfl⟩ := span_run span
      simp only [Option.some.injEq, Prod.mk.injEq] at h
      obtain ⟨⟨rfl, rfl⟩, rfl⟩ := h
      exact ⟨_, .whole run filled, rfl⟩

theorem readExponent_append {exponent rest : List Char} {e : Int} (h : ExponentText exponent e)
    (stop : Closes rest) : readExponent (exponent ++ rest) = .ok (e, rest) := by
  cases h with
  | none =>
      cases rest with
      | nil => rfl
      | cons c more =>
          obtain ⟨-, -, small, capital⟩ := stop c rfl
          simp [readExponent, small, capital]
  | @written mark sign ds negative hmark hsign run filled =>
      have signed := readSign_literal hsign (.of_digits run filled) rest
      have span : Digits.span (ds ++ rest) = (ds, rest) :=
        span_append run fun c hc => (stop c hc).1
      simp only [readExponent, List.cons_append, List.append_assoc, if_pos hmark, signed, span]

theorem readExponent_sound {cs rest : List Char} {e : Int}
    (h : readExponent cs = .ok (e, rest)) :
    ∃ exponent, ExponentText exponent e ∧ cs = exponent ++ rest := by
  cases cs with
  | nil =>
      simp only [readExponent, Except.ok.injEq, Prod.mk.injEq] at h
      obtain ⟨rfl, rfl⟩ := h
      exact ⟨[], .none, rfl⟩
  | cons c more =>
      simp only [readExponent] at h
      split at h
      · next mark =>
          obtain ⟨negative, tail, signed⟩ : ∃ n t, readSign more = (n, t) := ⟨_, _, rfl⟩
          obtain ⟨sign, hsign, rfl⟩ := readSign_sound signed
          simp only [signed] at h
          split at h
          · simp at h
          · next ds tail' filled span =>
              obtain ⟨run, rfl⟩ := span_run span
              simp only [Except.ok.injEq, Prod.mk.injEq] at h
              obtain ⟨rfl, rfl⟩ := h
              exact ⟨_, .written mark hsign run filled, by simp⟩
      · simp only [Except.ok.injEq, Prod.mk.injEq] at h
        obtain ⟨rfl, rfl⟩ := h
        exact ⟨[], .none, rfl⟩

theorem read_append {token rest : List Char} {l : Literal} (h : LiteralText token l)
    (stop : Closes rest) : read (token ++ rest) = .ok (l, rest) := by
  cases h with
  | @intro mantissa exponent whole fraction e hm he =>
      have mantissaRead : readMantissa (mantissa ++ (exponent ++ rest)) =
          some ((whole, fraction), exponent ++ rest) := by
        apply readMantissa_append hm
        intro c hc
        cases he with
        | none => exact ⟨(stop c hc).1, (stop c hc).2.1⟩
        | written mark _ _ _ =>
            obtain rfl := Option.some.inj hc
            rcases mark with rfl | rfl <;> decide
      simp only [read, List.append_assoc, mantissaRead, readExponent_append he stop]

theorem read_sound {cs rest : List Char} {l : Literal} (h : read cs = .ok (l, rest)) :
    ∃ token, LiteralText token l ∧ cs = token ++ rest := by
  unfold read at h
  split at h
  · simp at h
  · next whole fraction tail mantissa =>
      obtain ⟨m, hm, rfl⟩ := readMantissa_sound mantissa
      split at h
      · simp at h
      · next e tail' exponent =>
          obtain ⟨text, he, rfl⟩ := readExponent_sound exponent
          simp only [Except.ok.injEq, Prod.mk.injEq] at h
          obtain ⟨rfl, rfl⟩ := h
          exact ⟨_, .intro hm he, (List.append_assoc ..).symm⟩

/-- Where no literal begins, the reader finds no digits. -/
theorem read_noDigits {c : Char} {rest : List Char} (digit : c.isDigit = false) (point : c ≠ '.') :
    read (c :: rest) = .error .noDigits := by
  have span : Digits.span (c :: rest) = ([], c :: rest) :=
    @span_append [] (c :: rest) (by simp [Run]) (by simp [digit])
  have none : readMantissa (c :: rest) = none := by
    simp only [readMantissa, span]
    split
    · next h => exact absurd (List.cons.inj (Prod.mk.inj h).2).1 point
    · rfl
    · next filled h => exact absurd (Prod.mk.inj h).1.symm filled
    · next filled _ h => exact absurd (Prod.mk.inj h).1.symm filled
  rw [read, none]

theorem readSign_letter {sign more : List Char} {negative : Bool} {c : Char}
    (h : SignText sign negative) (letter : c.isAlpha = true) :
    readSign (sign ++ c :: more) = (negative, c :: more) := by
  apply readSign_append h
  intro d hd
  obtain rfl := Option.some.inj hd
  refine ⟨?_, ?_⟩ <;> rintro rfl <;> exact absurd letter (by decide)

theorem read_letter {c : Char} {rest : List Char} (letter : c.isAlpha = true) :
    read (c :: rest) = .error .noDigits := by
  apply read_noDigits (isDigit_of_isAlpha letter)
  rintro rfl
  exact absurd letter (by decide)

end Literal
end CorrelationPlot
