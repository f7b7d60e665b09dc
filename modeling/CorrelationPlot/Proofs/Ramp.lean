import CorrelationPlot.Plot.Prepared
import CorrelationPlot.Proofs.Palette
import Mathlib.Tactic.Ring

/-!
The colours of a ramp in closed form. All steps of a ramp go in one direction, so it does not matter
whether a channel is cut off after each of them or once behind the last.
-/
namespace CorrelationPlot.Ramp
open Rgb

theorem cutOff_of_range {v : Int} (range : 0 ≤ v ∧ v ≤ 255) : cutOff v = v := by
  rw [cutOff]
  omega

theorem cutOff_mono {v w : Int} (h : v ≤ w) : cutOff v ≤ cutOff w := by
  simp only [cutOff]
  omega

/-- A value that has left the range does not come back by a step away from it. -/
theorem cutOff_step {v a : Int} (h : 0 ≤ a ∧ 0 ≤ v ∨ a ≤ 0 ∧ v ≤ 255) :
    cutOff (cutOff v + a) = cutOff (v + a) := by
  simp only [cutOff]
  omega

/-- Where `k` steps lead without a bound, seen from the side from which they come. -/
theorem side_of_steps {c a : Int} (range : 0 ≤ c ∧ c ≤ 255) (k : Nat) :
    0 ≤ a ∧ 0 ≤ c + k * a ∨ a ≤ 0 ∧ c + k * a ≤ 255 := by
  rcases Int.le_total 0 a with up | down
  · have way : 0 ≤ k * a := Int.mul_nonneg (Int.natCast_nonneg k) up
    exact .inl ⟨up, by omega⟩
  · have way : k * a ≤ 0 := Int.mul_nonpos_of_nonneg_of_nonpos (Int.natCast_nonneg k) down
    exact .inr ⟨down, by omega⟩

theorem iterate_cutOff {c : Int} (a : Int) (range : 0 ≤ c ∧ c ≤ 255) (k : Nat) :
    (fun v => cutOff (v + a))^[k] c = cutOff (c + k * a) := by
  induction k with
  | zero => simp [cutOff_of_range range]
  | succ k ih =>
      -- The sum without bounds lies on the side from which a step cannot come back.
      have total : c + k * a + a = c + (k + 1 : Nat) * a := by
        push_cast
        ring
      rw [Function.iterate_succ_apply', ih, cutOff_step (side_of_steps range k), total]

section Steps
variable {r : Ramp} {color : Nat → Rgb}

theorem level_color_succ (colors : ∀ k, r.color k = .ok (color k)) (k : Nat) (i : Channel) :
    (color (k + 1)).level i = cutOff ((color k).level i + (amount r.percent).toInt) :=
  (shift_eq_ok.mp (lighten_color (colors k) (colors (k + 1))) i).2

theorem level_color_iterate (colors : ∀ k, r.color k = .ok (color k)) (k : Nat) (i : Channel) :
    (color k).level i =
      (fun v => cutOff (v + (amount r.percent).toInt))^[k] (r.seed.level i) := by
  induction k with
  | zero => rw [color_zero (colors 0)]; rfl
  | succ k ih => rw [level_color_succ colors, ih, Function.iterate_succ_apply']

theorem level_color (colors : ∀ k, r.color k = .ok (color k)) (k : Nat) (i : Channel) :
    (color k).level i = cutOff (r.seed.level i + k * (amount r.percent).toInt) := by
  rw [level_color_iterate colors, iterate_cutOff _ (r.seed.level_range i)]

theorem level_color_mono (colors : ∀ k, r.color k = .ok (color k))
    (up : 0 ≤ (amount r.percent).toInt) {k m : Nat} (h : k ≤ m) (i : Channel) :
    (color k).level i ≤ (color m).level i := by
  have farther : k * (amount r.percent).toInt ≤ m * (amount r.percent).toInt :=
    Int.mul_le_mul_of_nonneg_right (Int.ofNat_le.mpr h) up
  rw [level_color colors, level_color colors]
  exact cutOff_mono (Int.add_le_add_left farther _)

theorem level_color_anti (colors : ∀ k, r.color k = .ok (color k))
    (down : (amount r.percent).toInt ≤ 0) {k m : Nat} (h : k ≤ m) (i : Channel) :
    (color m).level i ≤ (color k).level i := by
  have farther : m * (amount r.percent).toInt ≤ k * (amount r.percent).toInt :=
    Int.mul_le_mul_of_nonpos_right (Int.ofNat_le.mpr h) down
  rw [level_color colors, level_color colors]
  exact cutOff_mono (Int.add_le_add_left farther _)

/-- Only the seed can lie at the bound from which the ramp leads away. -/
theorem down_of_empty (colors : ∀ k, r.color k = .ok (color k)) {k : Nat} {i : Channel}
    (empty : (color k).level i = 0) (reached : k ≠ 0 ∨ (amount r.percent).toInt ≤ 0) :
    (amount r.percent).toInt ≤ 0 := by
  cases k with
  | zero => exact reached.resolve_left fun h => h rfl
  | succ k =>
      have range := (color k).level_range i
      rw [level_color_succ colors, cutOff] at empty
      omega

theorem up_of_full (colors : ∀ k, r.color k = .ok (color k)) {k : Nat} {i : Channel}
    (full : (color k).level i = 255) (reached : k ≠ 0 ∨ 0 ≤ (amount r.percent).toInt) :
    0 ≤ (amount r.percent).toInt := by
  cases k with
  | zero => exact reached.resolve_left fun h => h rfl
  | succ k =>
      have range := (color k).level_range i
      rw [level_color_succ colors, cutOff] at full
      omega

theorem empty_stays (colors : ∀ k, r.color k = .ok (color k)) {k m : Nat} (h : k ≤ m)
    {i : Channel} (empty : (color k).level i = 0)
    (reached : k ≠ 0 ∨ (amount r.percent).toInt ≤ 0) : (color m).level i = 0 := by
  have darker := level_color_anti colors (down_of_empty colors empty reached) h i
  have range := (color m).level_range i
  omega

theorem full_stays (colors : ∀ k, r.color k = .ok (color k)) {k m : Nat} (h : k ≤ m)
    {i : Channel} (full : (color k).level i = 255)
    (reached : k ≠ 0 ∨ 0 ≤ (amount r.percent).toInt) : (color m).level i = 255 := by
  have lighter := level_color_mono colors (up_of_full colors full reached) h i
  have range := (color m).level_range i
  omega

end Steps

theorem amount_default : (amount ({} : Ramp).percent).toInt = 28 := by decide

theorem level_ofSeries (k : Nat) (i : Channel) :
    (ofSeries k).level i = min 255 (({} : Ramp).seed.level i + 28 * k) := by
  have range := ({} : Ramp).seed.level_range i
  rw [level_color color_default, amount_default, cutOff]
  omega

/-- The colour `k` steps behind the seed: no step overflows, and cutting each channel off after each
step is cutting it off once behind all of them. The channels go in the direction of the amount, and
one that a step brings to a bound stays there. So does one that begins at the bound to which the
ramp leads. -/
theorem levels_of_ramp (r : Ramp) (bounded : (amount r.percent).toInt ≤ 2 ^ 31 - 256) :
    let a := (amount r.percent).toInt
    ∃ color : Nat → Rgb, (∀ k, r.color k = .ok (color k)) ∧
    (∀ k i, (color k).level i = min 255 (max 0 (r.seed.level i + k * a)) ∧
      (color k).level i = (fun v => min 255 (max 0 (v + a)))^[k] (r.seed.level i)) ∧
    (∀ k m i, k ≤ m →
      (0 ≤ a → (color k).level i ≤ (color m).level i) ∧
      (a ≤ 0 → (color m).level i ≤ (color k).level i) ∧
      ((color k).level i = 0 → k ≠ 0 ∨ a ≤ 0 → (color m).level i = 0) ∧
      ((color k).level i = 255 → k ≠ 0 ∨ 0 ≤ a → (color m).level i = 255)) ∧
    (amount ({} : Ramp).percent).toInt = 28 ∧
    ∀ n s display x y, ∃ c, ({} : Ramp).color n = .ok c ∧
      (Prepared.scatter n s display x y).marker.color = c.hex ∧
      ∀ i, c.level i = min 255 (({} : Ramp).seed.level i + 28 * n) := by
  intro a
  choose color colors using exists_color (r := r) (by omega)
  refine ⟨color, colors, fun k i => ⟨level_color colors k i, level_color_iterate colors k i⟩, ?_,
    amount_default, fun n s display x y => ⟨_, color_default n, rfl, level_ofSeries n⟩⟩
  intro k m i h
  exact ⟨fun up => level_color_mono colors up h i, fun down => level_color_anti colors down h i,
    fun empty reached => empty_stays colors h empty reached,
    fun full reached => full_stays colors h full reached⟩

/-- A ramp that gets darker: green comes to its bound after five steps, and red begins there. -/
theorem darkening_levels :
    let r : Ramp := ⟨⟨0, 128, 255⟩, -11⟩
    (amount r.percent).toInt = -28 ∧ ∃ color : Nat → Rgb, (∀ k, r.color k = .ok (color k)) ∧
      (color 4).level .green = 16 ∧ (color 5).level .green = 0 ∧
      (∀ m, 5 ≤ m → (color m).level .green = 0) ∧ (∀ m, (color m).level .red = 0) ∧
      (color 9).level .blue = 3 ∧ ∀ m, 10 ≤ m → (color m).level .blue = 0 := by
  have step : (amount (-11)).toInt = -28 := by decide
  have bounded : (amount (-11)).toInt ≤ 2 ^ 31 - 256 := by rw [step]; decide
  obtain ⟨color, colors, closed, directed, -, -⟩ := levels_of_ramp ⟨⟨0, 128, 255⟩, -11⟩ bounded
  have at_step (k : Nat) (i : Channel) (v : Int)
      (h : min 255 (max 0 (level ⟨0, 128, 255⟩ i + k * -28)) = v) : (color k).level i = v := by
    rw [(closed k i).1, step]
    exact h
  have green := at_step 5 .green 0 (by decide)
  have blue := at_step 10 .blue 0 (by decide)
  have red := at_step 0 .red 0 (by decide)
  refine ⟨step, color, colors, at_step 4 .green 16 (by decide), green, fun m h => ?_, fun m => ?_,
    at_step 9 .blue 3 (by decide), fun m h => ?_⟩
  · exact (directed 5 m .green h).2.2.1 green (.inl (by decide))
  · exact (directed 0 m .red m.zero_le).2.2.1 red (.inr (by rw [step]; decide))
  · exact (directed 10 m .blue h).2.2.1 blue (.inl (by decide))

end CorrelationPlot.Ramp
