import CorrelationPlot.Proofs.Prepared
import CorrelationPlot.Proofs.Sketch.Density

/-!
The sketch as a whole. It has the panels of those cells that show a point, in the order of the
cells, and a panel has the shapes of its traces, one trace behind the other. A series is drawn with
a circle for each row that holds two numbers, and its panel is missing exactly when no row does.
-/
namespace CorrelationPlot

/-- The numbers in the two columns of a row, if both cells are numbers. -/
def Columns.numbers (cs : Columns) (row : Row) : Option Density.Point :=
  match row[cs.x]?, row[cs.y]? with
  | some (.number a), some (.number b) => some (a.toFloat, b.toFloat)
  | _, _ => none

def Shape.isCircle : Shape → Bool
  | .circle .. => true
  | .rect .. => false

namespace Sketch
open Prepared

section Whole
variable {doc : PlotDocument} {width height i : Nat} {panel : PanelDrawing}

theorem drawPanel?_eq_none :
    drawPanel? doc width height i = none ↔ ∀ t ∈ panelTraces doc i, points t = [] := by
  rw [← List.flatMap_eq_nil_iff, ← List.isEmpty_iff, drawPanel?]
  dsimp only
  split
  · next empty => exact iff_of_true rfl empty
  · next shown => exact iff_of_false (Option.some_ne_none _) shown

theorem shapes_of_drawPanel (h : drawPanel? doc width height i = some panel) :
    panel.shapes =
      seen (panelFrame doc width height i) (panelAxes doc i) (panelTraces doc i) := by
  rw [← drawnShapes_drawPanel, h]
  rfl

/-- A document without traces needs no case of its own. -/
theorem drawPanels_eq (doc : PlotDocument) (width height : Nat) :
    drawPanels doc width height =
      (List.range doc.layout.grid.size).filterMap (drawPanel? doc width height) := by
  rw [drawPanels]
  split
  · next empty =>
    rw [List.isEmpty_iff] at empty
    refine (List.filterMap_eq_nil_iff.mpr fun i _ => drawPanel?_eq_none.mpr ?_).symm
    rw [panelTraces, empty]
    exact fun t ht => nomatch ht
  · rfl

theorem mem_drawPanels :
    panel ∈ drawPanels doc width height ↔
      ∃ i < doc.layout.grid.size, drawPanel? doc width height i = some panel := by
  simp only [drawPanels_eq, List.mem_filterMap, List.mem_range]

/-- The sides of the sketch: those pinned in the layout win over those asked for. -/
def sides (doc : PlotDocument) (width height : Nat) : Nat × Nat :=
  ((doc.layout.width.map UInt32.toNat).getD width,
    (doc.layout.height.map UInt32.toNat).getD height)

/-- A sketch has some pixels, and not too many. -/
def Drawable (sides : Nat × Nat) : Prop :=
  (0 < sides.1 ∧ sides.1 ≤ maxSide) ∧ 0 < sides.2 ∧ sides.2 ≤ maxSide

instance (sides : Nat × Nat) : Decidable (Drawable sides) :=
  inferInstanceAs (Decidable (_ ∧ _))

theorem draw_eq_ok {sketch : Sketch} :
    draw doc width height = .ok sketch ↔
      let size := sides doc width height
      Drawable size ∧ sketch = {
        width := size.1
        height := size.2
        background := (Rgb.ofHex? doc.layout.paperBackground).getD ⟨255, 255, 255⟩
        ink := (Rgb.ofHex? doc.layout.fontColor).getD ⟨0, 0, 0⟩
        panels := drawPanels doc size.1 size.2 } := by
  simp only [draw, sides, Drawable]
  generalize (doc.layout.width.map UInt32.toNat).getD width = w
  generalize (doc.layout.height.map UInt32.toNat).getD height = h
  split
  · next empty => exact iff_of_false nofun fun fits => by omega
  · split
    · next large => exact iff_of_false nofun fun fits => by omega
    · next some small =>
      have fits : (0 < w ∧ w ≤ maxSide) ∧ 0 < h ∧ h ≤ maxSide := by omega
      rw [Except.ok.injEq, eq_comm, and_iff_right fits]

end Whole

section Circles
variable {doc : PlotDocument} {width height i : Nat} {f : Frame} {a : Axes} {shape : Shape}

theorem not_isCircle_of_density {t : ContourTrace} (h : shape ∈ densityShapes f a t) :
    shape.isCircle = false := by
  rw [densityShapes_eq] at h
  obtain ⟨b, -, rfl⟩ := List.mem_map.mp h
  rfl

/-- A circle in a sketch is a marker of one of the scatter traces. -/
theorem exists_scatter_of_circle {panel : PanelDrawing}
    (drawn : panel ∈ drawPanels doc width height) (here : shape ∈ panel.shapes)
    (circle : shape.isCircle) :
    ∃ t f a, .scatter t ∈ doc.traces ∧ shape ∈ markerShapes f a t := by
  obtain ⟨i, -, drawn⟩ := mem_drawPanels.mp drawn
  rw [shapes_of_drawPanel drawn] at here
  obtain ⟨t, ht, here⟩ := List.mem_flatMap.mp (List.mem_filter.mp here).1
  have listed : t ∈ doc.traces := (List.mem_filter.mp ht).1
  cases t with
  | scatter t => exact ⟨t, _, _, listed, here⟩
  | contour t => exact absurd circle (by rw [not_isCircle_of_density here]; decide)

/-- The shapes of a trace with points stand together in the sketch. -/
theorem seen_infix_of_trace {t : Trace} (ht : t ∈ panelTraces doc i)
    (inside : i < doc.layout.grid.size) (shown : points t ≠ []) (width height : Nat) :
    ∃ panel ∈ drawPanels doc width height,
      seen (panelFrame doc width height i) (panelAxes doc i) [t] <:+: panel.shapes := by
  obtain ⟨panel, drawn⟩ : ∃ panel, drawPanel? doc width height i = some panel :=
    Option.ne_none_iff_exists'.mp fun none => shown (drawPanel?_eq_none.mp none t ht)
  refine ⟨panel, mem_drawPanels.mpr ⟨i, inside, drawn⟩, ?_⟩
  obtain ⟨before, after, split⟩ := List.append_of_mem ht
  rw [← List.singleton_append, ← List.append_assoc] at split
  rw [shapes_of_drawPanel drawn, split, seen_append, seen_append]
  exact List.infix_append _ _ _

end Circles

section Series
variable {cs : Columns} {display : Display} {i : Nat} {s : Series} {f : Frame} {a : Axes}

/-- The markers of a series. -/
def markers (cs : Columns) (display : Display) (i : Nat) (s : Series) : ScatterTrace :=
  scatter i s display (cells s.rows cs.x) (cells s.rows cs.y)

theorem points_markers (display : Display) (i : Nat) (reached : Reached cs s.rows) :
    points (.scatter (markers cs display i s)) = s.rows.filterMap cs.numbers := by
  simp only [points, Trace.x, Trace.y, markers, scatter]
  generalize s.rows = rows at reached
  induction rows with
  | nil => rfl
  | cons r rows ih =>
      obtain ⟨⟨wide, wide'⟩, rest⟩ := List.forall_mem_cons.mp reached
      simp only [cells, List.filterMap_cons, List.getElem?_eq_getElem wide,
        List.getElem?_eq_getElem wide', List.zip_cons_cons, Columns.numbers]
      rw [← cells, ← cells, ih rest]
      cases r[cs.x] <;> cases r[cs.y] <;> rfl

theorem markerStyle_visible (display : Display) : (!(display.markerStyle.2 == 0)) = true := by
  rw [Display.markerStyle]
  split <;> decide

/-- All markers can be seen. -/
theorem seen_scatter {t : ScatterTrace} (visible : (!(t.marker.opacity == 0)) = true) :
    seen f a [.scatter t] = markerShapes f a t := by
  rw [seen, List.flatMap_singleton, traceShapes, List.filter_eq_self]
  intro shape h
  obtain ⟨p, -, rfl⟩ := List.mem_map.mp h
  exact visible

/-- All traces of a series have the points of its markers. -/
theorem points_of_drawn {t : Trace} (h : t ∈ drawn cs display i s) :
    points t = points (.scatter (markers cs display i s)) := by
  rw [drawn, List.mem_cons] at h
  rcases h with rfl | h
  · rfl
  · split at h
    · rw [List.mem_singleton.mp h]
      rfl
    · cases h

/-- The shapes of a series in its panel. -/
def seriesShapes (cs : Columns) (display : Display) (grid : Grid) (width height i : Nat)
    (s : Series) : List Shape :=
  let cell := grid.cell i
  let traces := drawn cs display i s
  seen (frame width height grid cell.1 cell.2) (axes (traces.flatMap points)) traces

/-- Of the shapes of a series the circles are its markers. -/
theorem filter_isCircle :
    (seen f a (drawn cs display i s)).filter Shape.isCircle =
      markerShapes f a (markers cs display i s) := by
  have split : drawn cs display i s =
      [.scatter (markers cs display i s)] ++ (drawn cs display i s).tail := rfl
  have visible : (!((markers cs display i s).marker.opacity == 0)) = true :=
    markerStyle_visible display
  have rest : (seen f a (drawn cs display i s).tail).filter Shape.isCircle = [] := by
    rw [List.filter_eq_nil_iff, drawn, List.tail_cons]
    intro shape h
    split at h
    · rw [seen_contour] at h
      rw [not_isCircle_of_density h]
      exact Bool.false_ne_true
    · cases h
  rw [split, seen_append, List.filter_append, rest, List.append_nil, seen_scatter visible,
    List.filter_eq_self]
  intro shape h
  obtain ⟨p, -, rfl⟩ := List.mem_map.mp h
  rfl

theorem circles_of_series (display : Display) (i : Nat) (reached : Reached cs s.rows) (grid : Grid)
    (width height : Nat) :
    ∃ a radius opacity fill,
      (seriesShapes cs display grid width height i s).filter Shape.isCircle =
        (s.rows.filterMap cs.numbers).map fun p =>
          let (row, column) := grid.cell i
          let (x, y) := pixel (frame width height grid row column) a p
          .circle x y radius opacity fill := by
  have numbers : points (.scatter (markers cs display i s)) = _ :=
    points_markers display i reached
  rw [seriesShapes, ← numbers]
  exact ⟨axes ((drawn cs display i s).flatMap points), _, _, _, filter_isCircle⟩

theorem seriesShapes_eq_nil (reached : Reached cs s.rows) (grid : Grid) (width height : Nat) :
    seriesShapes cs display grid width height i s = [] ↔ s.rows.filterMap cs.numbers = [] := by
  constructor
  · intro none
    obtain ⟨a, radius, opacity, fill, circles⟩ :=
      circles_of_series display i reached grid width height
    rw [none, List.filter_nil] at circles
    exact List.map_eq_nil_iff.mp circles.symm
  · intro none
    have nothing : ∀ t ∈ drawn cs display i s, points t = [] := fun t ht => by
      rw [points_of_drawn ht, points_markers display i reached, none]
    have bare := List.flatMap_eq_nil_iff.mpr fun t ht =>
      traceShapes_of_no_points (frame width height grid (grid.cell i).1 (grid.cell i).2)
        (axes ((drawn cs display i s).flatMap points)) (nothing t ht)
    rw [seriesShapes, seen, bare]
    rfl

end Series

section Panel
variable {doc : PlotDocument} {cs : Columns} {display : Display} {i : Nat} {s : Series}

theorem drawnShapes_of_series (here : panelTraces doc i = drawn cs display i s)
    (width height : Nat) :
    drawnShapes (drawPanel? doc width height i) =
      seriesShapes cs display doc.layout.grid width height i s := by
  rw [drawnShapes_drawPanel, panelAxes, here]
  rfl

/-- The panel of a series is drawn when it has shapes. -/
theorem shapes_of_series (here : panelTraces doc i = drawn cs display i s)
    (reached : Reached cs s.rows) (width height : Nat) :
    (drawPanel? doc width height i).map (·.shapes) =
      Option.guard (· ≠ []) (seriesShapes cs display doc.layout.grid width height i s) := by
  have shapes := drawnShapes_of_series here width height
  cases panel : drawPanel? doc width height i with
  | none =>
      rw [panel] at shapes
      rw [← shapes]
      rfl
  | some drawing =>
      rw [panel] at shapes
      have shown : seriesShapes cs display doc.layout.grid width height i s ≠ [] := by
        rw [Ne, seriesShapes_eq_nil reached, ← points_markers display i reached]
        intro none
        have missing : drawPanel? doc width height i = Option.none :=
          drawPanel?_eq_none.mpr fun t ht => (points_of_drawn (here ▸ ht)).trans none
        rw [panel] at missing
        cases missing
      exact (congrArg some shapes).trans (if_pos (decide_eq_true shown)).symm

end Panel
end Sketch
end CorrelationPlot
