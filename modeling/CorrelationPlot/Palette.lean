import CorrelationPlot.Number.Binary64
import CorrelationPlot.PlotFault
import CorrelationPlot.Text.Characters

/-!
Colours, and the ramp that gives each series its colour: the first series has the seed, and every
further one the colour before it, lightened by a fixed step. Lightening adds with 32 bits, and a sum
that has more is a fault. The steps between the series are far too small for that.
-/
namespace CorrelationPlot

structure Rgb where
  red : UInt8
  green : UInt8
  blue : UInt8
  deriving DecidableEq, Repr

inductive SumFault where
  | overflow
  deriving DecidableEq, Repr

def SumFault.message : SumFault → String
  | .overflow => "attempt to add with overflow"

namespace Rgb

/-- Six lower-case digits behind a hash. -/
def hex (c : Rgb) : String :=
  String.ofList ('#' :: Hex.byte c.red ++ Hex.byte c.green ++ Hex.byte c.blue)

def ofChannels? : Option UInt8 → Option UInt8 → Option UInt8 → Option Rgb
  | some r, some g, some b => some ⟨r, g, b⟩
  | _, _, _ => none

/-- A hash and six digits, or three digits that count twice each; blanks around do not matter. -/
def ofHex? (text : String) : Option Rgb :=
  match Blank.trim text.toList with
  | ['#', a, b, c, d, e, f] => ofChannels? (Hex.byte? a b) (Hex.byte? c d) (Hex.byte? e f)
  | ['#', a, b, c] => ofChannels? (Hex.byte? a a) (Hex.byte? b b) (Hex.byte? c c)
  | _ => none

def ofHex (text : String) : Except PlotFault Rgb :=
  match ofHex? text with
  | some c => .ok c
  | none => .error (.badColor text)

/-- How far a lightening by `percent` shifts every channel: `2.55 * percent` with halves going up,
kept within 32 bits. -/
def amount (percent : Float) : Int32 :=
  Int32.ofInt
    (Binary64.toIntWithin (-0x80000000) 0x7FFFFFFF Binary64.floor (2.55 * percent + 0.5))

/-- The sum of two numbers of 32 bits, which must not have more itself. -/
def sum (a b : Int32) : Except SumFault Int32 :=
  let exact := a.toInt + b.toInt
  if -0x80000000 ≤ exact ∧ exact ≤ 0x7FFFFFFF then .ok (Int32.ofInt exact) else .error .overflow

/-- The nearest value that a channel can have. -/
def nearestChannel (shifted : Int32) : UInt8 :=
  if 255 ≤ shifted then 255 else if shifted < 1 then 0 else UInt8.ofNat shifted.toInt.toNat

def shiftChannel (amount : Int32) (channel : UInt8) : Except SumFault UInt8 :=
  (sum (Int32.ofNat channel.toNat) amount).map nearestChannel

def shift (amount : Int32) (c : Rgb) : Except SumFault Rgb := do
  let red ← shiftChannel amount c.red
  let green ← shiftChannel amount c.green
  let blue ← shiftChannel amount c.blue
  .ok ⟨red, green, blue⟩

/-- Lightens a colour; a negative percentage darkens it. -/
def lighten (c : Rgb) (percent : Float) : Except SumFault Rgb := shift (amount percent) c

end Rgb

/-- Colours that follow each other by one lightening step. -/
structure Ramp where
  seed : Rgb := ⟨0x01, 0x5c, 0x0d⟩
  percent : Float := 11

namespace Ramp
open Rgb

/-- The colour of the ramp and the ramp behind it, whose colour is made at the same time. -/
def next (r : Ramp) : Except SumFault (Rgb × Ramp) := do
  let lighter ← r.seed.lighten r.percent
  .ok (r.seed, { r with seed := lighter })

def color (r : Ramp) : Nat → Except SumFault Rgb
  | 0 => r.next.map (·.1)
  | k + 1 => do
    let (_, rest) ← r.next
    rest.color k

section Room
variable {r : Ramp} {a : Int32}

theorem exists_shiftChannel (room : a.toInt + 255 ≤ 0x7FFFFFFF) (v : UInt8) :
    ∃ w, shiftChannel a v = .ok w := by
  have channel := v.toNat_lt
  have low := a.le_toInt
  have exact : (Int32.ofNat v.toNat).toInt = v.toNat :=
    Int32.toInt_ofNat_of_lt (Nat.lt_trans channel (by decide))
  rw [shiftChannel, sum, exact]
  exact ⟨_, by rw [if_pos (by omega)]; rfl⟩

theorem exists_next (room : (amount r.percent).toInt + 255 ≤ 0x7FFFFFFF) :
    ∃ c, r.next = .ok (r.seed, { r with seed := c }) := by
  obtain ⟨red, hred⟩ := exists_shiftChannel room r.seed.red
  obtain ⟨green, hgreen⟩ := exists_shiftChannel room r.seed.green
  obtain ⟨blue, hblue⟩ := exists_shiftChannel room r.seed.blue
  refine ⟨⟨red, green, blue⟩, ?_⟩
  rw [next, lighten, shift, hred, hgreen, hblue]
  rfl

/-- No step overflows whose amount leaves room for a channel. -/
theorem exists_color (room : (amount r.percent).toInt + 255 ≤ 0x7FFFFFFF) (k : Nat) :
    ∃ c, r.color k = .ok c := by
  induction k generalizing r with
  | zero =>
      obtain ⟨c, hc⟩ := exists_next room
      exact ⟨r.seed, by rw [color, hc]; rfl⟩
  | succ k ih =>
      obtain ⟨c, hc⟩ := exists_next room
      obtain ⟨d, hd⟩ := ih (r := { r with seed := c }) room
      exact ⟨d, by rw [color, hc]; exact hd⟩

end Room

theorem isSome_default (k : Nat) : (({} : Ramp).color k).toOption.isSome := by
  have room : (amount ({} : Ramp).percent).toInt + 255 ≤ 0x7FFFFFFF := by decide
  obtain ⟨c, hc⟩ := exists_color room k
  rw [hc]
  rfl

def ofSeries (i : Nat) : Rgb := (({} : Ramp).color i).toOption.get (isSome_default i)

end Ramp
end CorrelationPlot
