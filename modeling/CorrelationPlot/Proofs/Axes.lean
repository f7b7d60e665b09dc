import CorrelationPlot.Proofs.Panel
import Mathlib.Data.List.Induction

/-!
Axis ids and the panels that they select. The id of an x axis leads back to its panel, and any other
id that selects the panel spells the same number, with a plus sign or with zeros in front. Reading
the number digit by digit needs no more than the 64 bits that its result has.
-/
namespace CorrelationPlot

namespace Digits

/-- The digits of a number, each of them at its place in the alphabet of digits. -/
inductive Spells : List Char → Nat → Prop
  | single {c : Char} {v : Nat} : "0123456789".toList[v]? = some c → Spells [c] v
  | snoc {ds : List Char} {c : Char} {n v : Nat} :
      Spells ds n → "0123456789".toList[v]? = some c → Spells (ds ++ [c]) (10 * n + v)

theorem alphabet_iff {c : Char} {v : Nat} :
    "0123456789".toList[v]? = some c ↔ isDigit c = true ∧ digitValue c = v := by
  constructor
  · intro h
    have table : ∀ v < 10, "0123456789".toList[v]?.map (fun c => (isDigit c, digitValue c)) =
        some (true, v) := by decide
    have here := table v (List.getElem?_eq_some_iff.mp h).1
    rw [h] at here
    exact Prod.mk.inj (Option.some.inj here)
  · rintro ⟨digit, rfl⟩
    have table : ∀ n < 58, isDigit (Char.ofNat n) = true →
        "0123456789".toList[digitValue (Char.ofNat n)]? = some (Char.ofNat n) := by decide
    have here := table c.toNat (Nat.lt_succ_of_le (isDigit_iff.mp digit).2)
    rw [Char.ofNat_toNat] at here
    exact here digit

theorem spells_iff {ds : List Char} {n : Nat} :
    Spells ds n ↔ ds ≠ [] ∧ ds.all isDigit = true ∧ value ds = n := by
  constructor
  · intro h
    induction h with
    | single place =>
        obtain ⟨digit, rfl⟩ := alphabet_iff.mp place
        simp [digit, value]
    | snoc _ place ih =>
        obtain ⟨digit, rfl⟩ := alphabet_iff.mp place
        obtain ⟨-, digits, rfl⟩ := ih
        simp [digits, digit, value_append_digit]
  · rintro ⟨filled, digits, rfl⟩
    induction ds using List.reverseRecOn with
    | nil => contradiction
    | append_singleton ds c ih =>
        rw [List.all_append, Bool.and_eq_true, List.all_cons, List.all_nil, Bool.and_true] at digits
        have place := alphabet_iff.mpr ⟨digits.2, rfl⟩
        rw [value_append_digit]
        cases ds with
        | nil => simpa [value] using Spells.single place
        | cons d ds => exact .snoc (ih (List.cons_ne_nil d ds) digits.1) place

/-- What a number becomes by digits written behind it. -/
def prolonged (n : Nat) (ds : List Char) : Nat := ds.foldl (fun n c => 10 * n + digitValue c) n

theorem prolonged_zero (ds : List Char) : prolonged 0 ds = value ds := rfl

theorem le_prolonged (n : Nat) (ds : List Char) : n ≤ prolonged n ds := by
  induction ds generalizing n with
  | nil => exact Nat.le_refl n
  | cons c ds ih =>
      have first : n ≤ 10 * n + digitValue c := by omega
      exact Nat.le_trans first (ih _)

end Digits

namespace Panel
open Digits

/-- The ids of a panel: a bare letter for the first, a number that counts from one for the others,
which may have a plus sign. -/
inductive Selects : List Char → Nat → Prop
  | first : Selects ['x'] 0
  | numbered {sign ds : List Char} {i : Nat} : sign = [] ∨ sign = ['+'] → Spells ds (i + 1) →
      2 ≤ i + 1 → i + 1 ≤ 2 ^ 64 - 1 → Selects ('x' :: (sign ++ ds)) i

/-- What stands behind an optional plus sign. -/
def unsigned (cs : List Char) : List Char :=
  match cs with
  | '+' :: rest => rest
  | _ => cs

/-- One more digit behind a number of 64 bits, if ten times the number has them and so has the sum
with the digit. -/
def push? (n : UInt64) (c : Char) : Option UInt64 :=
  if n.toNat * 10 < UInt64.size ∧ isDigit c ∧
      (n * 10).toNat + (UInt64.ofNat (digitValue c)).toNat < UInt64.size then
    some (n * 10 + UInt64.ofNat (digitValue c))
  else none

/-- A number after an optional plus sign, read by a loop that fails when it leaves 64 bits. -/
def number64? (cs : List Char) : Option UInt64 :=
  if unsigned cs = [] then none else (unsigned cs).foldlM push? 0

section Loop
variable {n m : UInt64} {c : Char} {ds : List Char}

theorem toNat_tenfold (fits : n.toNat * 10 < UInt64.size) : (n * 10).toNat = 10 * n.toNat := by
  rw [UInt64.toNat_mul, Nat.mul_comm 10]
  exact Nat.mod_eq_of_lt fits

theorem toNat_digitValue (digit : isDigit c = true) :
    (UInt64.ofNat (digitValue c)).toNat = digitValue c := by
  have code := isDigit_iff.mp digit
  have size : UInt64.size = 2 ^ 64 := rfl
  apply UInt64.toNat_ofNat_of_lt'
  rw [digitValue]
  omega

theorem push?_eq_some :
    push? n c = some m ↔ isDigit c = true ∧ 10 * n.toNat + digitValue c = m.toNat := by
  have bound : m.toNat < UInt64.size := m.toNat_lt
  have sum (fits : n.toNat * 10 < UInt64.size) (digit : isDigit c = true)
      (total : 10 * n.toNat + digitValue c < UInt64.size) :
      (n * 10 + UInt64.ofNat (digitValue c)).toNat = 10 * n.toNat + digitValue c := by
    rw [UInt64.toNat_add, toNat_tenfold fits, toNat_digitValue digit]
    exact Nat.mod_eq_of_lt total
  rw [push?, Option.ite_none_right_eq_some, Option.some.injEq, ← UInt64.toNat_inj]
  constructor
  · rintro ⟨⟨fits, digit, total⟩, same⟩
    rw [toNat_tenfold fits, toNat_digitValue digit] at total
    exact ⟨digit, (sum fits digit total).symm.trans same⟩
  · rintro ⟨digit, same⟩
    have fits : n.toNat * 10 < UInt64.size := by omega
    have total : 10 * n.toNat + digitValue c < UInt64.size := by omega
    rw [toNat_tenfold fits, toNat_digitValue digit]
    exact ⟨⟨fits, digit, total⟩, (sum fits digit total).trans same⟩

/-- The loop comes to the value of the digits, and to nothing when this has more than 64 bits. -/
theorem foldlM_push?_eq_some : ds.foldlM push? n = some m ↔
    ds.all isDigit = true ∧ prolonged n.toNat ds = m.toNat := by
  induction ds generalizing n with
  | nil => simp [prolonged, UInt64.toNat_inj]
  | cons c ds ih =>
      have step : prolonged n.toNat (c :: ds) = prolonged (10 * n.toNat + digitValue c) ds := rfl
      rw [List.foldlM_cons, Option.bind_eq_bind, Option.bind_eq_some_iff, step]
      simp only [push?_eq_some, ih, List.all_cons, Bool.and_eq_true]
      constructor
      · rintro ⟨next, ⟨digit, sum⟩, digits, total⟩
        rw [← sum] at total
        exact ⟨⟨digit, digits⟩, total⟩
      · rintro ⟨⟨digit, digits⟩, total⟩
        -- The digits behind do not make the number smaller again.
        have fits : 10 * n.toNat + digitValue c < UInt64.size :=
          Nat.lt_of_le_of_lt (total ▸ le_prolonged _ ds) m.toNat_lt
        have next := UInt64.toNat_ofNat_of_lt' fits
        refine ⟨.ofNat (10 * n.toNat + digitValue c), ⟨digit, next.symm⟩, digits, ?_⟩
        rw [next, total]

end Loop

theorem number?_eq (cs : List Char) : number? cs =
    if unsigned cs ≠ [] ∧ (unsigned cs).all isDigit ∧ value (unsigned cs) < UInt64.size then
      some (value (unsigned cs))
    else none :=
  rfl

theorem number?_eq_number64? (cs : List Char) : number? cs = (number64? cs).map UInt64.toNat := by
  rw [number?_eq, number64?]
  generalize unsigned cs = ds
  apply Option.ext
  intro n
  rw [Option.ite_none_right_eq_some, Option.map_eq_some_iff]
  by_cases empty : ds = []
  · simp [empty]
  · simp only [if_neg empty, foldlM_push?_eq_some, UInt64.toNat_zero, prolonged_zero]
    constructor
    · rintro ⟨⟨-, digits, fits⟩, same⟩
      cases same
      have result := UInt64.toNat_ofNat_of_lt' fits
      exact ⟨_, ⟨digits, result.symm⟩, result⟩
    · rintro ⟨m, ⟨digits, same⟩, rfl⟩
      rw [same]
      exact ⟨⟨empty, digits, m.toNat_lt⟩, rfl⟩

theorem exists_sign (cs : List Char) :
    ∃ sign, (sign = [] ∨ sign = ['+']) ∧ cs = sign ++ unsigned cs := by
  rw [unsigned.eq_def]
  split
  · next rest => exact ⟨['+'], .inr rfl, rfl⟩
  · exact ⟨[], .inl rfl, rfl⟩

theorem unsigned_append {sign ds : List Char} (h : sign = [] ∨ sign = ['+'])
    (digits : ds.all isDigit = true) : unsigned (sign ++ ds) = ds := by
  rcases h with rfl | rfl
  · cases ds with
    | nil => rfl
    | cons d ds =>
        rw [List.nil_append, unsigned]
        rintro rest same
        cases same
        cases digits
  · rfl

theorem number?_eq_some {cs : List Char} {n : Nat} : number? cs = some n ↔
    ∃ sign ds, (sign = [] ∨ sign = ['+']) ∧ cs = sign ++ ds ∧ Spells ds n ∧ n < UInt64.size := by
  rw [number?_eq, Option.ite_none_right_eq_some]
  constructor
  · rintro ⟨⟨filled, digits, fits⟩, same⟩
    cases same
    obtain ⟨sign, hsign, split⟩ := exists_sign cs
    exact ⟨sign, _, hsign, split, spells_iff.mpr ⟨filled, digits, rfl⟩, fits⟩
  · rintro ⟨sign, ds, hsign, rfl, spelled, fits⟩
    obtain ⟨filled, digits, rfl⟩ := spells_iff.mp spelled
    rw [unsigned_append hsign digits]
    exact ⟨⟨filled, digits, fits⟩, rfl⟩

theorem ofAxis?_numbered {id : String} {suffix : List Char} (h : id.toList = 'x' :: suffix)
    (filled : suffix ≠ []) :
    ofAxis? id = (number? suffix).bind fun n => if 2 ≤ n then some (n - 1) else none := by
  cases suffix with
  | nil => contradiction
  | cons c suffix =>
      simp only [ofAxis?, h]
      cases number? (c :: suffix) <;> rfl

theorem ofAxis?_eq_some {id : String} {i : Nat} : ofAxis? id = some i ↔ Selects id.toList i := by
  have size : UInt64.size = 2 ^ 64 := rfl
  constructor
  · intro h
    rw [ofAxis?] at h
    split at h
    · next bare =>
      cases h
      exact bare ▸ .first
    · next suffix _ numbered =>
      split at h
      · next n read =>
        obtain ⟨several, same⟩ := Option.ite_none_right_eq_some.mp h
        obtain ⟨i, rfl⟩ := Nat.exists_eq_add_one.mpr (Nat.lt_of_lt_of_le Nat.zero_lt_two several)
        cases same
        obtain ⟨sign, ds, hsign, rfl, spelled, fits⟩ := number?_eq_some.mp read
        exact numbered ▸ .numbered hsign spelled several (by omega)
      · cases h
    · cases h
  · intro h
    generalize chars : id.toList = cs at h
    cases h with
    | first => simp only [ofAxis?, chars]
    | numbered hsign spelled several fits =>
        have read := number?_eq_some.mpr ⟨_, _, hsign, rfl, spelled, by omega⟩
        have filled := (spells_iff.mp spelled).1
        rw [ofAxis?_numbered chars (by simp [filled]), read, Option.bind_some, if_pos several,
          Nat.add_sub_cancel]

/-- The number of a great panel is not cut to 64 bits. -/
theorem ofAxis?_of_great {sign ds : List Char} {n : Nat} (hsign : sign = [] ∨ sign = ['+'])
    (spelled : Spells ds n) (great : 2 ^ 64 ≤ n) :
    ofAxis? (String.ofList ('x' :: (sign ++ ds))) = none := by
  obtain ⟨filled, digits, rfl⟩ := spells_iff.mp spelled
  have unread : number? (sign ++ ds) = none := by
    rw [number?_eq, unsigned_append hsign digits, if_neg]
    rintro ⟨-, -, fits⟩
    exact Nat.not_lt.mpr great fits
  rw [ofAxis?_numbered (String.toList_ofList ..) (by simp [filled]), unread, Option.bind_none]

theorem Selects.letter {cs : List Char} {i : Nat} (h : Selects cs i) :
    ∃ more, cs = 'x' :: more := by
  cases h <;> exact ⟨_, rfl⟩

theorem ofAxis?_axisId_ne {letter : Char} (other : letter ≠ 'x') (i : Nat) :
    ofAxis? (axisId letter i) = none := by
  rw [Option.eq_none_iff_forall_ne_some]
  intro k h
  obtain ⟨more, spelled⟩ := (ofAxis?_eq_some.mp h).letter
  rw [axisId, String.toList_ofList] at spelled
  split at spelled <;> exact other (List.cons.inj spelled).1

/-- The id of an x axis leads back to its panel and no y axis leads to any. All ids that select a
panel are its bare letter or spell its number, and what has no panel of 64 bits selects none. The
number is the one of the loop that reads it digit by digit. -/
theorem panel_of_axis :
    (∀ i < 2 ^ 64 - 1, ofAxis? (axes i).1 = some i) ∧
    (∀ i j, i ≠ j → (axes i).1 ≠ (axes j).1 ∧ (axes i).2 ≠ (axes j).2) ∧
    (∀ i, ofAxis? (axes i).2 = none) ∧
    (∀ id i, ofAxis? id = some i ↔ Selects id.toList i) ∧
    (∀ id, ofAxis? id = none ↔ ∀ i, ¬ Selects id.toList i) ∧
    (∀ sign ds n, sign = [] ∨ sign = ['+'] → Spells ds n → 2 ^ 64 ≤ n →
      ofAxis? (String.ofList ('x' :: (sign ++ ds))) = none) ∧
    ∀ cs, number? cs = (number64? cs).map UInt64.toNat := by
  have size : UInt64.size = 2 ^ 64 := rfl
  refine ⟨fun i h => ofAxis?_axes (by omega), fun i j apart => ?_, ofAxis?_axisId_ne (by decide),
    fun id i => ofAxis?_eq_some, fun id => ?_, fun _ _ _ => ofAxis?_of_great, number?_eq_number64?⟩
  · exact ⟨fun same => apart (axisId_injective same).2, fun same => apart (axisId_injective same).2⟩
  · simp only [Option.eq_none_iff_forall_ne_some, ne_eq, ofAxis?_eq_some]

/-- The last panel that has an id, the number behind the last, and a number with all that it may
have in front. -/
theorem panel_of_last_axis :
    ofAxis? (axes (2 ^ 64 - 2)).1 = some (2 ^ 64 - 2) ∧
      (axes (2 ^ 64 - 2)).1 ≠ (axes (2 ^ 64 - 3)).1 ∧
      ofAxis? "x18446744073709551616" = none ∧ ofAxis? "x+007" = some 6 := by
  have seven : Spells "007".toList (6 + 1) := spells_iff.mpr (by decide)
  have behind : Spells "18446744073709551616".toList (2 ^ 64) := spells_iff.mpr (by decide)
  obtain ⟨back, apart, -, selects, -, great, -⟩ := panel_of_axis
  exact ⟨back _ (by decide), (apart _ _ (by decide)).1,
    great [] _ _ (.inl rfl) behind (Nat.le_refl _),
    (selects _ _).mpr (.numbered (.inr rfl) seven (by decide) (by decide))⟩

end Panel
end CorrelationPlot
