import CorrelationPlot.Json.Printer
import CorrelationPlot.Json.Reader
import CorrelationPlot.Proofs.Characters
import CorrelationPlot.Proofs.Literal
import CorrelationPlot.Proofs.Shortest

/-!
Numbers as JSON text. The text of a number is a number text of the grammar, and reading it gives the
number back: integers through their digits, and finite values because their shortest decimal is
nearest to them alone.
-/
namespace CorrelationPlot.Json
open Literal

theorem Number.ofInt?_eq_some {i : Int} {n : Number} :
    ofInt? i = some n ↔ ∃ inRange, n = .int i inRange := by
  constructor
  · intro h
    obtain ⟨inRange, h⟩ := Option.dite_none_right_eq_some.mp h
    exact ⟨inRange, (Option.some.inj h).symm⟩
  · rintro ⟨inRange, rfl⟩
    exact dif_pos inRange

theorem Number.ofFloat?_eq_some {x : Float} {n : Number} :
    ofFloat? x = some n ↔ ∃ finite, n = .float x finite := by
  constructor
  · intro h
    obtain ⟨finite, h⟩ := Option.dite_none_right_eq_some.mp h
    exact ⟨finite, (Option.some.inj h).symm⟩
  · rintro ⟨finite, rfl⟩
    exact dif_pos finite

theorem Number.ofFloat?_eq_none {x : Float} (h : Binary64.isFinite x = false) :
    ofFloat? x = none := by
  simp [ofFloat?, h]

theorem Number.finite_toFloat (n : Number) : Binary64.isFinite n.toFloat := by
  cases n with
  | int i inRange => exact Binary64.isFinite_ofInt inRange
  | float x finite => exact finite

/-- Digits without a zero in front of others. -/
structure Whole (ds : List Char) : Prop where
  run : Run ds
  filled : ds ≠ []
  lead : ∀ more, ds = '0' :: more → more = []

inductive FractionText : List Char → Option (List Char) → Prop
  | none : FractionText [] none
  | point {ds : List Char} : Run ds → ds ≠ [] → FractionText ('.' :: ds) (some ds)

inductive PowerText : List Char → Option Int → Prop
  | none : PowerText [] none
  | power {sign ds : List Char} {negative : Bool} : SignText sign negative → Run ds → ds ≠ [] →
      PowerText ('e' :: (sign ++ ds))
        (some (if negative then -(Digits.value ds : Int) else Digits.value ds))

theorem readWhole_append {w rest : List Char} (whole : Whole w)
    (stop : ∀ c, rest.head? = some c → c.isDigit = false) :
    readWhole (w ++ rest) = .ok (w, rest) := by
  rw [readWhole, span_append whole.run stop]
  split
  · next h => exact absurd (Prod.mk.inj h).1 whole.filled
  · next h => cases whole.lead _ (Prod.mk.inj h).1
  · next h =>
    obtain ⟨rfl, rfl⟩ := Prod.mk.inj h
    rfl

theorem readFraction_append {text rest : List Char} {f : Option (List Char)}
    (h : FractionText text f) (stop : ∀ c, rest.head? = some c → c.isDigit = false ∧ c ≠ '.') :
    readFraction (text ++ rest) = .ok (f, rest) := by
  cases h with
  | none =>
      rw [List.nil_append, readFraction]
      rintro more rfl
      exact (stop '.' rfl).2 rfl
  | @point ds run filled =>
      rw [List.cons_append, readFraction, span_append run fun c hc => (stop c hc).1]
      split
      · next h => exact absurd (Prod.mk.inj h).1 filled
      · next h =>
        obtain ⟨rfl, rfl⟩ := Prod.mk.inj h
        rfl

theorem readExponent_append {text rest : List Char} {e : Option Int} (h : PowerText text e)
    (stop : Closes rest) : readExponent (text ++ rest) = .ok (e, rest) := by
  cases h with
  | none =>
      cases rest with
      | nil => rfl
      | cons c more =>
          obtain ⟨-, -, small, capital⟩ := stop c rfl
          simp [readExponent, small, capital]
  | @power sign ds negative hsign run filled =>
      have signed := readSign_literal hsign (.of_digits run filled) rest
      have span : Digits.span (ds ++ rest) = (ds, rest) :=
        span_append run fun c hc => (stop c hc).1
      simp only [readExponent, List.cons_append, List.append_assoc, true_or, if_true, signed, span]

theorem readUnsigned_append {w ft pt rest : List Char} {f : Option (List Char)} {e : Option Int}
    (negative : Bool) (whole : Whole w) (fraction : FractionText ft f) (power : PowerText pt e)
    (stop : Closes rest) : readUnsigned negative (w ++ (ft ++ (pt ++ rest))) =
      .ok (numberValue negative w f e, rest) := by
  have behind : ∀ c, (pt ++ rest).head? = some c → c.isDigit = false ∧ c ≠ '.' := by
    intro c hc
    cases power with
    | none => exact ⟨(stop c hc).1, (stop c hc).2.1⟩
    | power =>
        cases hc
        decide
  have behindWhole : ∀ c, (ft ++ (pt ++ rest)).head? = some c → c.isDigit = false := by
    intro c hc
    cases fraction with
    | none => exact (behind c hc).1
    | point =>
        cases hc
        decide
  rw [readUnsigned, readWhole_append whole behindWhole]
  simp only [bind, Except.bind]
  rw [readFraction_append fraction behind]
  simp only
  rw [readExponent_append power stop]

theorem run_ofNat (n : Nat) : Run (Digits.ofNat n) :=
  List.all_eq_true.mp (Digits.all_isDigit_ofNat n)

theorem whole_ofNat (n : Nat) : Whole (Digits.ofNat n) where
  run := run_ofNat n
  filled := Digits.ofNat_ne_nil n
  lead more h := by
    rw [Digits.ofNat_head h, Digits.ofNat_zero] at h
    exact (List.cons.inj h).2.symm

theorem whole_digit {d : Char} (digit : d.isDigit = true) : Whole [d] where
  run := by simpa [Run] using digit
  filled := List.cons_ne_nil d []
  lead _ h := (List.cons.inj h).2.symm

/-- Only zero has a zero in front. -/
theorem whole_of_head {n : Nat} (nonzero : n ≠ 0) {w : List Char} (run : Run w)
    (same : w.head? = (Digits.ofNat n).head?) : Whole w := by
  obtain ⟨d, ds, hds⟩ := List.exists_cons_of_ne_nil (Digits.ofNat_ne_nil n)
  refine ⟨run, ?_, ?_⟩
  · rintro rfl
    simp [hds] at same
  · rintro more rfl
    obtain rfl : '0' = d := by simpa [hds] using same
    exact absurd (Digits.ofNat_head hds) nonzero

theorem run_zeros (k : Nat) : Run (List.replicate k '0') := by
  intro c hc
  rw [List.eq_of_mem_replicate hc]
  rfl

theorem run_append {ds ds' : List Char} (run : Run ds) (run' : Run ds') : Run (ds ++ ds') := by
  intro c hc
  rcases List.mem_append.mp hc with hc | hc
  · exact run c hc
  · exact run' c hc

/-- Number texts that are no integers, with the literals that they denote. -/
inductive FloatLiteral : List Char → Literal → Prop
  | intro {w ft pt : List Char} {f : Option (List Char)} {e : Option Int} : Whole w →
      FractionText ft f → PowerText pt e → f ≠ none ∨ e ≠ none →
      FloatLiteral (w ++ (ft ++ pt)) ⟨w, f.getD [], e.getD 0⟩

theorem readUnsigned_float {text rest : List Char} {l : Literal} (negative : Bool)
    (h : FloatLiteral text l) (stop : Closes rest) : readUnsigned negative (text ++ rest) =
      .ok (Number.ofFloat? (l.toFloat negative), rest) := by
  cases h with
  | @intro w ft pt f e whole fraction power marked =>
      rw [List.append_assoc, List.append_assoc,
        readUnsigned_append negative whole fraction power stop, numberValue]
      tauto

theorem floatLiteral_point {w ds : List Char} (whole : Whole w) (run : Run ds) (filled : ds ≠ []) :
    FloatLiteral (w ++ '.' :: ds) ⟨w, ds, 0⟩ := by
  simpa using FloatLiteral.intro whole (.point run filled) .none (.inl (by simp))

/-- Positional text of a whole number. -/
theorem floatLiteral_whole {d : Decimal} (whole : 0 ≤ d.exponent)
    (zero : d.digits = 0 → d.exponent = 0) :
    ∃ l, FloatLiteral (FloatText.positional d) l ∧ l.decimal.word = d.word := by
  let w := Digits.ofNat d.digits ++ List.replicate d.exponent.toNat '0'
  have lead : Whole w := by
    by_cases nonzero : d.digits = 0
    · simpa [w, zero nonzero] using whole_ofNat d.digits
    · apply whole_of_head nonzero (run_append (run_ofNat _) (run_zeros _))
      rw [List.head?_append_of_ne_nil _ (Digits.ofNat_ne_nil _)]
  have digits : Digits.value (w ++ ['0']) = d.digits * 10 ^ (d.exponent.toNat + 1) := by
    rw [List.append_assoc, ← List.replicate_succ', Digits.value_append_zeros, Digits.value_ofNat]
  refine ⟨⟨w, ['0'], 0⟩, ?_, ?_⟩
  · rw [FloatText.positional, if_pos whole]
    exact floatLiteral_point lead (by simp [Run]) (List.cons_ne_nil _ _)
  · rw [decimal, digits, Decimal.word_shift]
    congr 2
    simp only [List.length_singleton]
    omega

/-- The digits of a number with zeros in front, so that there is one before the last `k`. -/
def padded (n k : Nat) : List Char :=
  List.replicate (k + 1 - (Digits.ofNat n).length) '0' ++ Digits.ofNat n

theorem length_padded (n k : Nat) :
    (padded n k).length = max (k + 1) (Digits.ofNat n).length := by
  rw [padded, List.length_append, List.length_replicate]
  omega

theorem run_padded (n k : Nat) : Run (padded n k) := run_append (run_zeros _) (run_ofNat n)

theorem whole_padded {n : Nat} (nonzero : n ≠ 0) (k : Nat) :
    Whole ((padded n k).take ((padded n k).length - k)) := by
  have length := length_padded n k
  by_cases short : (Digits.ofNat n).length ≤ k
  · have first : (padded n k).length - k = 1 := by omega
    have zeros : k + 1 - (Digits.ofNat n).length = k - (Digits.ofNat n).length + 1 := by omega
    rw [first, padded, zeros, List.replicate_succ]
    exact whole_digit rfl
  · apply whole_of_head nonzero fun c hc => run_padded n k c (List.mem_of_mem_take hc)
    rw [List.head?_take, if_neg (by omega), padded,
      Nat.sub_eq_zero_of_le (Nat.lt_of_not_le short), List.replicate_zero, List.nil_append]

/-- Positional text with digits behind the point that count. -/
theorem floatLiteral_places {d : Decimal} (places : d.exponent < 0)
    (zero : d.digits = 0 → d.exponent = 0) :
    ∃ l, FloatLiteral (FloatText.positional d) l ∧ l.decimal.word = d.word := by
  have nonzero : d.digits ≠ 0 := fun h => by omega
  let k := (-d.exponent).toNat
  let front := (padded d.digits k).take ((padded d.digits k).length - k)
  let back := (padded d.digits k).drop ((padded d.digits k).length - k)
  have behind : back.length = k := by
    have length := length_padded d.digits k
    simp only [back, List.length_drop]
    omega
  have filled : back ≠ [] := List.ne_nil_of_length_pos (by omega)
  have digits : Digits.value (front ++ back) = d.digits := by
    rw [List.take_append_drop, padded, Digits.value_zeros_append, Digits.value_ofNat]
  refine ⟨⟨front, back, 0⟩, ?_, ?_⟩
  · rw [FloatText.positional, if_neg (by omega)]
    exact floatLiteral_point (whole_padded nonzero k)
      (fun c hc => run_padded d.digits k c (List.mem_of_mem_drop hc)) filled
  · rw [decimal, digits, behind]
    congr 2
    simp only [k]
    omega

theorem powerText_signed (e : Int) :
    PowerText ('e' :: (if e < 0 then '-' else '+') :: Digits.ofNat e.natAbs) (some e) := by
  have filled := Digits.ofNat_ne_nil e.natAbs
  by_cases negative : e < 0
  · have text := PowerText.power .minus (run_ofNat e.natAbs) filled
    rw [if_pos rfl, Digits.value_ofNat, Int.ofNat_natAbs_of_nonpos (by omega), Int.neg_neg] at text
    rwa [if_pos negative]
  · have text := PowerText.power .plus (run_ofNat e.natAbs) filled
    rw [if_neg Bool.false_ne_true, Digits.value_ofNat, Int.natAbs_of_nonneg (by omega)] at text
    rwa [if_neg negative]

theorem floatLiteral_scientific (d : Decimal) :
    ∃ l, FloatLiteral (FloatText.scientific d) l ∧ l.decimal.word = d.word := by
  obtain ⟨first, others, hds⟩ := List.exists_cons_of_ne_nil (Digits.ofNat_ne_nil d.digits)
  have run : Run (first :: others) := hds ▸ run_ofNat d.digits
  have digits : Digits.value (first :: others) = d.digits := by rw [← hds, Digits.value_ofNat]
  have lead : Whole [first] := whole_digit (run first List.mem_cons_self)
  have power := powerText_signed (d.exponent + others.length)
  refine ⟨⟨[first], others, d.exponent + others.length⟩, ?_, ?_⟩
  · simp only [FloatText.scientific, hds, List.length_cons, Nat.add_sub_cancel]
    cases others with
    | nil => exact .intro lead .none power (.inr nofun)
    | cons second more =>
        have behind : Run (second :: more) := fun c hc => run c (List.mem_cons_of_mem _ hc)
        exact .intro lead (.point behind (List.cons_ne_nil _ _)) power (.inr nofun)
  · simp only [decimal, List.singleton_append, digits, Int.add_sub_cancel]

theorem floatLiteral_json {x : Float} (finite : Binary64.isFinite x) :
    ∃ text l, FloatText.json x = FloatText.signed x text ∧ FloatLiteral text l ∧
      l.toFloat (Binary64.isNegative x) = x := by
  let d := Decimal.shortest .toEven x
  have zero : d.digits = 0 → d.exponent = 0 := fun h => by
    rw [show d = ⟨0, 0⟩ from Decimal.shortest_of_digits_zero finite h]
  have near {l : Literal} (h : l.decimal.word = d.word) :
      l.toFloat (Binary64.isNegative x) = x := by
    rw [Literal.toFloat, Decimal.toFloat_eq, h, ← Decimal.toFloat_eq]
    exact Decimal.toFloat_shortest .toEven finite
  by_cases middle : -5 ≤ FloatText.leading d ∧ FloatText.leading d < 16
  · obtain ⟨l, literal, word⟩ : ∃ l, FloatLiteral (FloatText.positional d) l ∧
        l.decimal.word = d.word := by
      by_cases whole : 0 ≤ d.exponent
      · exact floatLiteral_whole whole zero
      · exact floatLiteral_places (Int.not_le.mp whole) zero
    exact ⟨_, l, congrArg (FloatText.signed x) (if_pos middle), literal, near word⟩
  · obtain ⟨l, literal, word⟩ := floatLiteral_scientific d
    exact ⟨_, l, congrArg (FloatText.signed x) (if_neg middle), literal, near word⟩

def Begins (text : List Char) : Prop := ∃ d more, text = d :: more ∧ d.isDigit = true

theorem begins_append {w : List Char} (whole : Whole w) (more : List Char) :
    Begins (w ++ more) := by
  obtain ⟨d, ds, rfl, digit⟩ := head_of_run whole.run whole.filled
  exact ⟨d, _, rfl, digit⟩

theorem begins_ofNat (n : Nat) : Begins (Digits.ofNat n) := by
  simpa using begins_append (whole_ofNat n) []

theorem FloatLiteral.begins {text : List Char} {l : Literal} (h : FloatLiteral text l) :
    Begins text := by
  cases h with
  | intro whole _ _ _ => exact begins_append whole _

/-- What the text of a number begins with tells it from every other value. -/
theorem head_text (n : Number) : ∃ c more, n.text = c :: more ∧ (c = '-' ∨ c.isDigit = true) := by
  have signed (negative : Bool) {text : List Char} (begins : Begins text) : ∃ c more,
      (if negative then '-' :: text else text) = c :: more ∧ (c = '-' ∨ c.isDigit = true) := by
    obtain ⟨d, more, rfl, digit⟩ := begins
    cases negative with
    | true => exact ⟨_, _, rfl, .inl rfl⟩
    | false => exact ⟨_, _, rfl, .inr digit⟩
  cases n with
  | int i inRange =>
      have head := signed (decide (i < 0)) (begins_ofNat i.natAbs)
      simpa only [Number.text, Digits.ofInt, decide_eq_true_eq] using head
  | float x finite =>
      obtain ⟨text, l, htext, literal, -⟩ := floatLiteral_json finite
      rw [Number.text, htext]
      exact signed _ literal.begins

theorem readNumber_signed {negative : Bool} {text rest : List Char} {n : Option Number}
    (begins : Begins text) (h : readUnsigned negative (text ++ rest) = .ok (n, rest)) :
    readNumber ((if negative then '-' :: text else text) ++ rest) = (.number n, some rest) := by
  cases negative with
  | true => simp only [if_true, List.cons_append, readNumber, h]
  | false =>
      obtain ⟨d, more, rfl, digit⟩ := begins
      have positive : d ≠ '-' := by
        rintro rfl
        cases digit
      rw [if_neg Bool.false_ne_true, readNumber, h]
      rintro more' same
      exact positive (List.cons.inj same).1

theorem numberValue_int {i : Int} (inRange : -0x8000000000000000 ≤ i ∧ i < UInt64.size) :
    numberValue (decide (i < 0)) (Digits.ofNat i.natAbs) none none = some (.int i inRange) := by
  have exact : (if i < 0 then -(i.natAbs : Int) else i.natAbs) = i := by
    split <;> omega
  have notMinusZero : ¬(decide (i < 0) && decide (i.natAbs = 0)) = true := by
    rw [Bool.and_eq_true, decide_eq_true_eq, decide_eq_true_eq]
    omega
  simp only [numberValue, Digits.value_ofNat, if_neg notMinusZero, decide_eq_true_eq, exact]
  rw [Number.ofInt?, dif_pos inRange]
  rfl

/-- Reading the text of a number gives the number. -/
theorem readNumber_text (n : Number) {rest : List Char} (stop : Closes rest) :
    readNumber (n.text ++ rest) = (.number (some n), some rest) := by
  cases n with
  | float x finite =>
      obtain ⟨text, l, htext, literal, value⟩ := floatLiteral_json finite
      have read := readUnsigned_float (Binary64.isNegative x) literal stop
      rw [value, Number.ofFloat?, dif_pos finite] at read
      rw [Number.text, htext]
      exact readNumber_signed literal.begins read
  | int i inRange =>
      have read := readUnsigned_append (decide (i < 0)) (whole_ofNat i.natAbs) .none .none stop
      rw [numberValue_int inRange, List.nil_append, List.nil_append] at read
      have number := readNumber_signed (begins_ofNat i.natAbs) read
      simpa only [Number.text, Digits.ofInt, decide_eq_true_eq] using number

end CorrelationPlot.Json
