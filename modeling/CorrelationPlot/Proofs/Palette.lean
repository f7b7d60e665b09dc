import CorrelationPlot.Palette
import CorrelationPlot.Proofs.Outcome
import Mathlib.Algebra.Ring.Int.Defs
import Mathlib.Logic.Function.Iterate

/-!
Lightening, channel by channel. A channel moves by the amount and is cut off at its bounds, as long
as the sums have 32 bits. Only the amounts next to the greatest make them too large, and then there
is no lighter colour at all. The colours of a ramp follow each other by one lightening each.
-/
namespace CorrelationPlot
open Outcome

namespace Rgb

inductive Channel where
  | red
  | green
  | blue

/-- The value of one channel. -/
def level (c : Rgb) : Channel → Int
  | .red => c.red.toNat
  | .green => c.green.toNat
  | .blue => c.blue.toNat

/-- The nearest value that a channel can have. -/
def cutOff (v : Int) : Int := min 255 (max 0 v)

theorem level_range (c : Rgb) (i : Channel) : 0 ≤ c.level i ∧ c.level i ≤ 255 := by
  have red := c.red.toNat_lt
  have green := c.green.toNat_lt
  have blue := c.blue.toNat_lt
  cases i <;> simp only [level] <;> omega

theorem sum_eq_ok {a b s : Int32} : sum a b = .ok s ↔ s.toInt = a.toInt + b.toInt := by
  have low := s.le_toInt
  have high := s.toInt_lt
  simp only [sum]
  split
  · next fits =>
    rw [Except.ok.injEq, ← Int32.toInt_inj, Int32.toInt_ofInt_of_le (by omega) (by omega), eq_comm]
  · next beyond =>
    simp only [reduceCtorEq, false_iff]
    omega

theorem sum_eq_error {a b : Int32} {f : SumFault} :
    sum a b = .error f ↔ a.toInt + b.toInt < -2 ^ 31 ∨ 2 ^ 31 ≤ a.toInt + b.toInt := by
  simp only [sum]
  split
  · next fits =>
    simp only [reduceCtorEq, false_iff]
    omega
  · next beyond =>
    cases f
    refine iff_of_true rfl ?_
    omega

theorem toInt_channel (v : UInt8) : (Int32.ofNat v.toNat).toInt = v.toNat :=
  Int32.toInt_ofNat_of_lt (Nat.lt_trans v.toNat_lt (by decide))

theorem toNat_nearestChannel (s : Int32) : ((nearestChannel s).toNat : Int) = cutOff s.toInt := by
  have full : 255 ≤ s ↔ 255 ≤ s.toInt := Int32.le_iff_toInt_le
  have empty : s < 1 ↔ s.toInt < 1 := Int32.lt_iff_toInt_lt
  simp only [nearestChannel, full, empty, cutOff]
  by_cases top : 255 ≤ s.toInt
  · have value : ((255 : UInt8).toNat : Int) = 255 := rfl
    rw [if_pos top, value]
    omega
  · rw [if_neg top]
    by_cases bottom : s.toInt < 1
    · have value : ((0 : UInt8).toNat : Int) = 0 := rfl
      rw [if_pos bottom, value]
      omega
    · have small : s.toInt.toNat < UInt8.size := by
        have size : UInt8.size = 256 := rfl
        omega
      rw [if_neg bottom, UInt8.toNat_ofNat_of_lt' small]
      omega

theorem shiftChannel_eq_ok {a : Int32} {v w : UInt8} :
    shiftChannel a v = .ok w ↔
      v.toNat + a.toInt < 2 ^ 31 ∧ (w.toNat : Int) = cutOff (v.toNat + a.toInt) := by
  simp only [shiftChannel, map_eq_ok, sum_eq_ok, toInt_channel]
  constructor
  · rintro ⟨s, exact, rfl⟩
    rw [toNat_nearestChannel, exact]
    exact ⟨exact ▸ s.toInt_lt, rfl⟩
  · rintro ⟨fits, value⟩
    have low := a.le_toInt
    have exact : (Int32.ofInt (v.toNat + a.toInt)).toInt = v.toNat + a.toInt :=
      Int32.toInt_ofInt_of_le (by omega) fits
    refine ⟨_, exact, UInt8.toNat_inj.mp (Int.ofNat_inj.mp ?_)⟩
    rw [toNat_nearestChannel, exact, value]

theorem shiftChannel_eq_error {a : Int32} {v : UInt8} {f : SumFault} :
    shiftChannel a v = .error f ↔ 2 ^ 31 ≤ v.toNat + a.toInt := by
  have low := a.le_toInt
  rw [shiftChannel, map_eq_error, sum_eq_error, toInt_channel]
  omega

theorem shift_eq_ok {a : Int32} {c c' : Rgb} :
    shift a c = .ok c' ↔
      ∀ i, c.level i + a.toInt < 2 ^ 31 ∧ c'.level i = cutOff (c.level i + a.toInt) := by
  simp only [shift, bind_eq_ok, shiftChannel_eq_ok]
  constructor
  · rintro ⟨red, hred, green, hgreen, blue, hblue, same⟩ i
    cases same
    cases i with
    | red => exact hred
    | green => exact hgreen
    | blue => exact hblue
  · intro h
    exact ⟨_, h .red, _, h .green, _, h .blue, rfl⟩

/-- One channel with too great a sum is enough. -/
theorem shift_eq_error {a : Int32} {c : Rgb} {f : SumFault} :
    shift a c = .error f ↔ ∃ i, 2 ^ 31 ≤ c.level i + a.toInt := by
  constructor
  · simp only [shift, bind_eq_error, shiftChannel_eq_error]
    rintro (red | ⟨_, -, green | ⟨_, -, blue | ⟨_, -, ⟨⟩⟩⟩⟩)
    · exact ⟨.red, red⟩
    · exact ⟨.green, green⟩
    · exact ⟨.blue, blue⟩
  · rintro ⟨i, beyond⟩
    cases shifted : shift a c with
    | error e =>
        cases e
        cases f
        rfl
    | ok c' =>
        have fits := (shift_eq_ok.mp shifted i).1
        omega

/-- Lightening succeeds exactly when all sums stay below `2 ^ 31`. Then every channel is cut off as
it should be, and none goes against the amount. A sum that is greater is a fault, though the amount
is positive and the channel could be full. -/
theorem lighten_cuts_off (c : Rgb) (percent : Float) :
    let a := (amount percent).toInt
    (∀ c', c.lighten percent = .ok c' ↔
      ∀ i, c.level i + a < 2 ^ 31 ∧ c'.level i = cutOff (c.level i + a)) ∧
    (∀ f, c.lighten percent = .error f ↔ ∃ i, 2 ^ 31 ≤ c.level i + a) ∧
    (∀ i, -2 ^ 31 ≤ c.level i + a ∧ (2 ^ 31 ≤ c.level i + a → 0 < a ∧ 0 < c.level i)) ∧
    (a ≤ 2 ^ 31 - 256 → ∃ c', c.lighten percent = .ok c') ∧
    ∀ c', c.lighten percent = .ok c' → ∀ i,
      (a ≤ 0 → c'.level i ≤ c.level i) ∧ (0 ≤ a → c.level i ≤ c'.level i) := by
  intro a
  have low : -2 ^ 31 ≤ a := (amount percent).le_toInt
  have high : a < 2 ^ 31 := (amount percent).toInt_lt
  refine ⟨fun c' => shift_eq_ok, fun f => shift_eq_error, fun i => ?_, fun room => ?_,
    fun c' lighter i => ?_⟩
  · have range := c.level_range i
    omega
  · cases lighter : c.lighten percent with
    | ok c' => exact ⟨c', rfl⟩
    | error f =>
        obtain ⟨i, beyond⟩ := shift_eq_error.mp lighter
        have range := c.level_range i
        omega
  · have range := c.level_range i
    rw [(shift_eq_ok.mp lighter i).2, cutOff]
    omega

/-- The greatest amount makes black white, and has no room for a channel of one. -/
theorem black_lightened_white :
    (amount 1000000000).toInt = 2 ^ 31 - 1 ∧ (amount (-11)).toInt = -28 ∧
      lighten ⟨0, 0, 0⟩ 1000000000 = .ok ⟨255, 255, 255⟩ ∧
      lighten ⟨0, 1, 0⟩ 1000000000 = .error .overflow ∧
      ∃ c', lighten ⟨255, 0, 0⟩ (-11) = .ok c' ∧ c'.level .red ≤ 255 := by
  have greatest : (amount 1000000000).toInt = 2 ^ 31 - 1 := by decide
  have darker : (amount (-11)).toInt = -28 := by decide
  obtain ⟨black, -⟩ := lighten_cuts_off ⟨0, 0, 0⟩ 1000000000
  obtain ⟨-, green, -⟩ := lighten_cuts_off ⟨0, 1, 0⟩ 1000000000
  obtain ⟨-, -, -, room, directed⟩ := lighten_cuts_off ⟨255, 0, 0⟩ (-11)
  rw [greatest] at black green
  rw [darker] at room directed
  obtain ⟨c', lightened⟩ := room (by decide)
  refine ⟨greatest, darker, (black _).mpr fun i => ?_, (green _).mpr ⟨.green, by decide⟩, c',
    lightened, (directed c' lightened .red).1 (by decide)⟩
  cases i <;> decide

/-- Lightened by the greatest amount, white should stay white. -/
theorem white_overflows :
    let white : Rgb := ⟨255, 255, 255⟩
    let a := (amount 1000000000).toInt
    a = 2 ^ 31 - 1 ∧ white.lighten 1000000000 = .error .overflow ∧
      ¬ (∀ i, white.level i + a < 2 ^ 31) ∧
      ¬ ∃ c', white.lighten 1000000000 = .ok c' ∧ ∀ i, c'.level i = cutOff (white.level i + a) := by
  have greatest : (amount 1000000000).toInt = 2 ^ 31 - 1 := by decide
  have beyond : ∃ i, 2 ^ 31 ≤ level ⟨255, 255, 255⟩ i + (amount 1000000000).toInt := by
    rw [greatest]
    exact ⟨.red, by decide⟩
  have fault : lighten ⟨255, 255, 255⟩ 1000000000 = .error .overflow := shift_eq_error.mpr beyond
  obtain ⟨i, beyond⟩ := beyond
  refine ⟨greatest, fault, fun fits => Int.not_le.mpr (fits i) beyond, ?_⟩
  rintro ⟨c', lighter, -⟩
  cases fault.symm.trans lighter

end Rgb

namespace Ramp
open Rgb

theorem next_eq_ok {r rest : Ramp} {c : Rgb} :
    r.next = .ok (c, rest) ↔
      c = r.seed ∧ ∃ d, r.seed.lighten r.percent = .ok d ∧ rest = { r with seed := d } := by
  rw [next, bind_eq_ok]
  constructor
  · rintro ⟨d, lighter, same⟩
    cases same
    exact ⟨rfl, d, lighter, rfl⟩
  · rintro ⟨rfl, d, lighter, rfl⟩
    exact ⟨d, lighter, rfl⟩

theorem color_zero {r : Ramp} {c : Rgb} (h : r.color 0 = .ok c) : c = r.seed := by
  obtain ⟨⟨_, _⟩, first, rfl⟩ := map_eq_ok.mp h
  exact (next_eq_ok.mp first).1

theorem color_succ {r : Ramp} {k : Nat} {c : Rgb} (h : r.color (k + 1) = .ok c) :
    ∃ d, r.seed.lighten r.percent = .ok d ∧ color { r with seed := d } k = .ok c := by
  obtain ⟨⟨_, rest⟩, first, h⟩ := bind_eq_ok.mp h
  obtain ⟨-, d, lighter, rfl⟩ := next_eq_ok.mp first
  exact ⟨d, lighter, h⟩

/-- A colour behind another is that one lightened once. -/
theorem lighten_color {r : Ramp} {k : Nat} {c d : Rgb} (hc : r.color k = .ok c)
    (hd : r.color (k + 1) = .ok d) : c.lighten r.percent = .ok d := by
  induction k generalizing r with
  | zero =>
      obtain ⟨d', lighter, here⟩ := color_succ hd
      obtain rfl := color_zero hc
      obtain rfl := color_zero here
      exact lighter
  | succ k ih =>
      obtain ⟨e, lighter, hc⟩ := color_succ hc
      obtain ⟨e', lighter', hd⟩ := color_succ hd
      cases lighter.symm.trans lighter'
      exact ih (r := { r with seed := e }) hc hd

theorem iterate_lighten {r : Ramp} {k : Nat} {c : Rgb} (h : r.color k = .ok c) :
    (fun c? => c? >>= fun c => lighten c r.percent)^[k] (.ok r.seed) = .ok c := by
  induction k generalizing r with
  | zero => rw [color_zero h]; rfl
  | succ k ih =>
      obtain ⟨d, lighter, h⟩ := color_succ h
      rw [Function.iterate_succ_apply, ← ih h, ← lighter]
      rfl

theorem color_default (k : Nat) : ({} : Ramp).color k = .ok (ofSeries k) := eq_ok_get _

end Ramp
end CorrelationPlot
