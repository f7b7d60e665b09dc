import CorrelationPlot.Proofs.Binary64
import CorrelationPlot.Sketch.Drawing
import Mathlib.Algebra.BigOperators.Group.List.Lemmas
import Mathlib.Data.List.ProdSigma

/-!
The density of a trace. Its counts are those of the points in each bin, and no point is outside of
all bins, whatever its coordinates and the intervals are. So the drawing stands for all the points:
one rectangle for each bin that holds some, and none exactly when there are no points.
-/
namespace CorrelationPlot

/-- Also what lies outside the interval, or nowhere, has a bin. -/
theorem Interval.bin_lt (i : Interval) {n : Nat} (positive : 0 < n) (v : Float) :
    i.bin n v < n := by
  obtain ⟨low, high⟩ := Binary64.toIntWithin_mem (le_refl 0) (Int.natCast_nonneg (n - 1))
    Binary64.floor (i.fraction v * Float.ofNat n)
  rw [bin]
  omega

namespace Density

/-- The bin of a point. -/
def binOf (x y : Interval) (n : Nat) (p : Point) : Nat × Nat := (x.bin n p.1, y.bin n p.2)

/-- How many points a bin holds. -/
def held (points : List Point) (x y : Interval) (n : Nat) (b : Nat × Nat) : Nat :=
  points.countP fun p => binOf x y n p = b

/-- All bins, column by column. -/
def square (n : Nat) : List (Nat × Nat) := List.range n ×ˢ List.range n

/-- The bins that hold a point, column by column. -/
def occupied (points : List Point) (x y : Interval) (n : Nat) : List (Nat × Nat) :=
  (square n).filter fun b => held points x y n b != 0

/-- What each bin has, in columns. -/
def table {α : Type} (n : Nat) (f : Nat × Nat → α) : List (List α) :=
  (List.range n).map fun i => (List.range n).map fun j => f (i, j)

/-- One more point in a bin, unless there is no such bin. -/
def add? (counts : List (List Nat)) (b : Nat × Nat) : Option (List (List Nat)) := do
  let column ← counts[b.1]?
  let count ← column[b.2]?
  some (counts.set b.1 (column.set b.2 (count + 1)))

/-- The counts, made by a loop that fails when a point has no bin to be counted in. -/
def bins? (points : List Point) (x y : Interval) (n : Nat) : Option (List (List Nat)) :=
  points.foldlM (fun counts p => add? counts (binOf x y n p))
    (List.replicate n (List.replicate n 0))

section Table
variable {α β : Type} {n : Nat}

theorem modify_map_range (f : Nat → α) (i : Nat) (g : α → α) :
    ((List.range n).map f).modify i g =
      (List.range n).map fun j => if i = j then g (f j) else f j := by
  apply List.ext_getElem <;> simp [List.getElem_modify]

theorem mapIdx_map_range (f : Nat → α) (g : Nat → α → β) :
    ((List.range n).map f).mapIdx g = (List.range n).map fun i => g i (f i) := by
  apply List.ext_getElem <;> simp

theorem flatten_table (n : Nat) (f : Nat × Nat → α) : (table n f).flatten = (square n).map f := by
  simp only [table, square, SProd.sprod, List.product, List.map_flatMap, List.map_map]
  rfl

theorem mem_square {b : Nat × Nat} : b ∈ square n ↔ b.1 < n ∧ b.2 < n := by
  rw [square, ← Prod.mk.eta (p := b), List.mem_product, List.mem_range, List.mem_range]

theorem nodup_square (n : Nat) : (square n).Nodup := List.nodup_range.product List.nodup_range

theorem replicate_eq_table (n : Nat) :
    List.replicate n (List.replicate n 0) = table n fun _ => 0 := by
  simp [table, List.map_const']

/-- One step of the count. -/
theorem add_table (n : Nat) (f : Nat × Nat → Nat) (b : Nat × Nat) :
    add (table n f) b = table n fun c => f c + if b = c then 1 else 0 := by
  simp only [add, table, modify_map_range]
  apply List.map_congr_left
  intro i _
  split
  · next here =>
    apply List.map_congr_left
    intro j _
    simp only [Prod.ext_iff, here, true_and]
    split <;> rfl
  · next elsewhere => simp only [Prod.ext_iff, elsewhere, false_and, if_false, Nat.add_zero]

/-- A step finds its bin in the square. -/
theorem add?_table (f : Nat × Nat → Nat) {b : Nat × Nat} (inside : b ∈ square n) :
    add? (table n f) b = some (add (table n f) b) := by
  obtain ⟨column, row⟩ := mem_square.mp inside
  simp [add?, add, table, column, row, List.modify_eq_set_getElem?]

/-- A whole run of the count. -/
theorem foldl_add_table (n : Nat) (f : Nat × Nat → Nat) (bs : List (Nat × Nat)) :
    bs.foldl add (table n f) = table n fun c => f c + bs.countP (· = c) := by
  induction bs generalizing f with
  | nil => rfl
  | cons b bs ih =>
      rw [List.foldl_cons, add_table, ih]
      simp only [List.countP_cons, decide_eq_true_eq, Nat.add_assoc, Nat.add_comm (List.countP _ _)]

theorem foldlM_add?_table (f : Nat × Nat → Nat) {bs : List (Nat × Nat)}
    (inside : ∀ b ∈ bs, b ∈ square n) :
    bs.foldlM add? (table n f) = some (bs.foldl add (table n f)) := by
  induction bs generalizing f with
  | nil => rfl
  | cons b bs ih =>
      obtain ⟨first, rest⟩ := List.forall_mem_cons.mp inside
      rw [List.foldlM_cons, List.foldl_cons, add?_table f first, add_table]
      exact ih _ rest

end Table

theorem foldl_max_le_iff {counts : List Nat} {m k : Nat} :
    counts.foldl max m ≤ k ↔ m ≤ k ∧ ∀ c ∈ counts, c ≤ k := by
  induction counts generalizing m with
  | nil => simp
  | cons c counts ih => rw [List.foldl_cons, ih, Nat.max_le, List.forall_mem_cons, and_assoc]

section Bins
variable (points : List Point) (x y : Interval) {n : Nat}

theorem held_eq (n : Nat) :
    held points x y n = fun b => (points.map (binOf x y n)).countP (· = b) := by
  funext b
  rw [List.countP_map]
  rfl

theorem bins_eq (n : Nat) : bins points x y n = table n (held points x y n) := by
  have run := foldl_add_table n (fun _ => 0) (points.map (binOf x y n))
  simp only [List.foldl_map, Nat.zero_add] at run
  rw [bins, replicate_eq_table, held_eq]
  exact run

theorem binOf_mem_square (positive : 0 < n) (p : Point) : binOf x y n p ∈ square n :=
  mem_square.mpr ⟨x.bin_lt positive p.1, y.bin_lt positive p.2⟩

theorem bins?_eq (positive : 0 < n) : bins? points x y n = some (bins points x y n) := by
  have inside : ∀ b ∈ points.map (binOf x y n), b ∈ square n := by
    intro b hb
    obtain ⟨p, -, rfl⟩ := List.mem_map.mp hb
    exact binOf_mem_square x y positive p
  have run := foldlM_add?_table (fun _ => 0) inside
  rw [← replicate_eq_table, List.foldlM_map, List.foldl_map] at run
  exact run

theorem mem_occupied (positive : 0 < n) {b : Nat × Nat} :
    b ∈ occupied points x y n ↔ ∃ p ∈ points, binOf x y n p = b := by
  simp only [occupied, List.mem_filter, bne_iff_ne, held, ne_eq, List.countP_eq_zero]
  constructor
  · rintro ⟨-, some⟩
    simpa using some
  · rintro ⟨p, hp, rfl⟩
    exact ⟨binOf_mem_square x y positive p, fun none => none p hp (decide_eq_true rfl)⟩

theorem nodup_occupied (n : Nat) : (occupied points x y n).Nodup := (nodup_square n).filter _

/-- Every point is counted once, in the bin that it lies in. -/
theorem sum_occupied (positive : 0 < n) :
    ((occupied points x y n).map (held points x y n)).sum = points.length := by
  have same : (occupied points x y n).Perm (points.map (binOf x y n)).dedup := by
    rw [List.perm_ext_iff_of_nodup (nodup_occupied points x y n) (List.nodup_dedup _)]
    intro b
    rw [mem_occupied points x y positive, List.mem_dedup, List.mem_map]
  rw [(same.map _).sum_eq, held_eq, ← List.length_map (binOf x y n)]
  exact List.sum_map_count_dedup_eq_length _

theorem sum_bins (positive : 0 < n) : (bins points x y n).flatten.sum = points.length := by
  rw [bins_eq, flatten_table, ← List.sum_filter_bne_zero, List.filter_map]
  exact sum_occupied points x y positive

/-- The greatest count. -/
def greatest (points : List Point) (x y : Interval) (n : Nat) : Nat :=
  (bins points x y n).flatten.foldl max 0

theorem greatest_le_iff {k : Nat} :
    greatest points x y n ≤ k ↔ ∀ b ∈ square n, held points x y n b ≤ k := by
  rw [greatest, foldl_max_le_iff, bins_eq, flatten_table, List.forall_mem_map]
  exact and_iff_right k.zero_le

theorem held_of_occupied {b : Nat × Nat} (h : b ∈ occupied points x y n) :
    0 < held points x y n b ∧ held points x y n b ≤ greatest points x y n := by
  obtain ⟨inside, filled⟩ := List.mem_filter.mp h
  exact ⟨Nat.pos_of_ne_zero (bne_iff_ne.mp filled),
    (greatest_le_iff points x y).mp (le_refl _) b inside⟩

theorem occupied_eq_nil (positive : 0 < n) : occupied points x y n = [] ↔ points = [] := by
  have total := sum_occupied points x y positive
  constructor
  · intro none
    rw [none] at total
    exact List.length_eq_zero_iff.mp total.symm
  · rintro rfl
    rw [List.eq_nil_iff_forall_not_mem]
    intro b hb
    obtain ⟨p, hp, -⟩ := (mem_occupied [] x y positive).mp hb
    cases hp

theorem greatest_eq_zero (positive : 0 < n) : greatest points x y n = 0 ↔ points = [] := by
  rw [← occupied_eq_nil points x y positive, occupied, List.filter_eq_nil_iff, ← Nat.le_zero,
    greatest_le_iff]
  simp

end Bins
end Density

namespace Sketch
open Density

/-- The rectangle of a bin with a count. -/
def binRect (f : Frame) (a : Axes) (greatest : Nat) (b : Nat × Nat) (count : Nat) : Shape :=
  let width := (a.x.hi - a.x.lo) / Float.ofNat densityBins
  let height := (a.y.hi - a.y.lo) / Float.ofNat densityBins
  let x := a.x.lo + Float.ofNat b.1 * width
  let y := a.y.lo + Float.ofNat b.2 * height
  rect (pixel f a (x, y)) (pixel f a (x + width, y + height)) 0.8 (Density.color count greatest)

theorem densityShapes_eq (f : Frame) (a : Axes) (t : ContourTrace) :
    let shown := points (.contour t)
    densityShapes f a t = (occupied shown a.x a.y densityBins).map fun b =>
      binRect f a (greatest shown a.x a.y densityBins) b (held shown a.x a.y densityBins b) := by
  intro shown
  let count := held shown a.x a.y densityBins
  have columns : densityShapes f a t =
      ((table densityBins fun b => if count b = 0 then none else
        some (binRect f a (greatest shown a.x a.y densityBins) b (count b))).map
          (List.filterMap id)).flatten := by
    rw [densityShapes, greatest]
    dsimp only
    rw [bins_eq]
    simp only [table, mapIdx_map_range, List.map_map]
    rfl
  rw [columns, ← List.filterMap_flatten, flatten_table, List.filterMap_map, occupied,
    ← List.filterMap_eq_map, List.filterMap_filter]
  congr 1
  funext b
  simp only [Function.comp_apply, id, bne_iff_ne, ite_not]
  rfl

/-- The shapes of some traces, as far as they can be seen. -/
def seen (f : Frame) (a : Axes) (traces : List Trace) : List Shape :=
  (traces.flatMap (traceShapes f a)).filter fun s => !(s.opacity == 0)

/-- The shapes in a panel. A panel without numbers is not drawn and has none. -/
def drawnShapes (panel : Option PanelDrawing) : List Shape := (panel.map (·.shapes)).getD []

def panelFrame (doc : PlotDocument) (width height panel : Nat) : Frame :=
  let cell := doc.layout.grid.cell panel
  frame width height doc.layout.grid cell.1 cell.2

def panelAxes (doc : PlotDocument) (panel : Nat) : Axes :=
  axes ((panelTraces doc panel).flatMap points)

theorem traceShapes_of_no_points (f : Frame) (a : Axes) {t : Trace} (none : points t = []) :
    traceShapes f a t = [] := by
  cases t with
  | scatter t => rw [traceShapes, markerShapes, none, List.map_nil]
  | contour t =>
      rw [traceShapes, densityShapes_eq, none, (occupied_eq_nil [] a.x a.y (by decide)).mpr rfl,
        List.map_nil]

theorem drawnShapes_drawPanel (doc : PlotDocument) (width height panel : Nat) :
    drawnShapes (drawPanel? doc width height panel) =
      seen (panelFrame doc width height panel) (panelAxes doc panel) (panelTraces doc panel) := by
  rw [drawPanel?]
  dsimp only
  split
  · next empty =>
    rw [List.isEmpty_iff, List.flatMap_eq_nil_iff] at empty
    have nothing : (panelTraces doc panel).flatMap
        (traceShapes (panelFrame doc width height panel) (panelAxes doc panel)) = [] :=
      List.flatMap_eq_nil_iff.mpr fun t ht => traceShapes_of_no_points _ _ (empty t ht)
    rw [seen, nothing]
    rfl
  · rfl

theorem seen_append (f : Frame) (a : Axes) (ts ts' : List Trace) :
    seen f a (ts ++ ts') = seen f a ts ++ seen f a ts' := by
  rw [seen, List.flatMap_append, List.filter_append, seen, seen]

/-- No rectangle of a density is transparent. -/
theorem seen_contour (f : Frame) (a : Axes) (t : ContourTrace) :
    seen f a [.contour t] = densityShapes f a t := by
  rw [seen, List.flatMap_singleton, traceShapes, List.filter_eq_self, densityShapes_eq]
  intro shape h
  obtain ⟨b, -, rfl⟩ := List.mem_map.mp h
  have visible : (!((0.8 : Float) == 0)) = true := by decide
  exact visible

/-- Every point is counted in one bin, also where the coordinates or the intervals are not finite,
and the count never leaves the columns. Hence a density has one rectangle for each bin that holds
points, in the order of the bins, none without points, and its colours never divide by zero. -/
theorem density_loses_no_point (listed : List Point) (x y : Interval) {n : Nat}
    (positive : 0 < n) :
    bins? listed x y n = some (bins listed x y n) ∧
    bins listed x y n = ((List.range n).map fun i => (List.range n).map fun j =>
      listed.countP fun p => x.bin n p.1 = i ∧ y.bin n p.2 = j) ∧
    (bins listed x y n).flatten.sum = listed.length ∧
    ∀ doc width height panel before t after,
      panelTraces doc panel = before ++ .contour t :: after →
      let f := panelFrame doc width height panel
      let a := panelAxes doc panel
      let shown := points (.contour t)
      let filled := occupied shown a.x a.y densityBins
      let count := held shown a.x a.y densityBins
      let most := greatest shown a.x a.y densityBins
      drawnShapes (drawPanel? doc width height panel) =
        seen f a before ++ (filled.map fun b => binRect f a most b (count b)) ++ seen f a after ∧
      (filled = [] ↔ shown = []) ∧ (most = 0 ↔ shown = []) ∧
      (∀ b ∈ filled, 0 < count b ∧ count b ≤ most) ∧
      filled.Nodup ∧ (∀ b, b ∈ filled ↔ ∃ p ∈ shown, binOf a.x a.y densityBins p = b) ∧
      (filled.map count).sum = shown.length := by
  refine ⟨bins?_eq listed x y positive, ?_, sum_bins listed x y positive, ?_⟩
  · rw [bins_eq]
    simp only [table, held, binOf, Prod.mk.injEq]
  · intro doc width height panel before t after split f a shown filled count most
    have some : 0 < densityBins := by decide
    refine ⟨?_, occupied_eq_nil shown a.x a.y some, greatest_eq_zero shown a.x a.y some,
      fun b => held_of_occupied shown a.x a.y, nodup_occupied shown a.x a.y densityBins,
      fun b => mem_occupied shown a.x a.y some, sum_occupied shown a.x a.y some⟩
    rw [drawnShapes_drawPanel, split, seen_append, ← List.singleton_append, seen_append, seen_contour,
      densityShapes_eq, List.append_assoc]

/-- The density of five points, two of them in one place, and of a pair that is no point. -/
def fivePoints : ContourTrace where
  x := [.ofInt 0, .ofInt 10, .null, .ofInt 10, .ofInt 5, .ofInt 2]
  y := [.ofInt 0, .ofInt 10, .ofInt 3, .ofInt 10, .ofInt 0, .ofInt 9]
  name := "density"
  contours := 20
  colorScale := "Hot"
  reverseScale := true
  showScale := false
  xAxis := "x"
  yAxis := "y"

theorem fivePoints_drawn : 0 < 4 ∧
    bins [(0, 0), (10, 10), (10, -3), (25, 5)] ⟨0, 10⟩ ⟨0, 10⟩ 4 =
      [[1, 0, 0, 0], [0, 0, 0, 0], [0, 0, 0, 0], [1, 0, 1, 1]] ∧
    (bins [(0, 0), (3, 1), (1, 2)] ⟨7, 7⟩ ⟨Binary64.nan, 1⟩ 4).flatten.sum = 3 ∧
    (drawnShapes (drawPanel? ⟨[.contour fivePoints], {}, {}⟩ 640 480 0)).length = 4 := by
  have four : 0 < 4 := by decide
  obtain ⟨-, counts, -, -⟩ := density_loses_no_point [(0, 0), (10, 10), (10, -3), (25, 5)]
    ⟨0, 10⟩ ⟨0, 10⟩ four
  obtain ⟨-, -, total, drawn⟩ := density_loses_no_point [(0, 0), (3, 1), (1, 2)]
    ⟨7, 7⟩ ⟨Binary64.nan, 1⟩ four
  have here : panelTraces ⟨[.contour fivePoints], {}, {}⟩ 0 = [] ++ .contour fivePoints :: [] := by
    decide
  obtain ⟨rectangles, -⟩ := drawn _ 640 480 0 _ _ _ here
  refine ⟨four, counts.trans (by decide +kernel), total, ?_⟩
  rw [rectangles, seen, List.flatMap_nil, List.filter_nil, List.nil_append, List.append_nil,
    List.length_map]
  decide +kernel

end Sketch
end CorrelationPlot
