import CorrelationPlot.Plot.Trace
import CorrelationPlot.Proofs.Json.Record
import CorrelationPlot.Proofs.Json.Restore
import CorrelationPlot.Proofs.Json.Sound

/-!
Cells and traces told by their shape. The kinds of cells are the kinds of JSON values that hold no
others, so a cell keeps its kind without naming it. A value never has the shape of both kinds of
trace: an object names its type, and the fourth item of an array is the name of a scatter trace but
the number of contours. So it does not matter which kind is tried first, and a trace that was read
is read again from what is written for it.
-/
namespace CorrelationPlot
open Json Outcome

namespace Cell

theorem ofJson?_toJson (c : Cell) : ofJson? c.toJson = some c := by
  cases c <;> rfl

theorem nesting_toJson (c : Cell) : c.toJson.nesting = 0 := by
  cases c <;> rfl

theorem within_list (n : Nat) : (Codec.list Cell.codec).Within (n + 1) :=
  Codec.Within.list fun c => c.nesting_toJson.trans_le (Nat.zero_le n)

theorem restores {A : Arrangement} (c : Cell) : Cell.codec.Restores A c := by
  have scalar := A.scalar _ c.nesting_toJson
  apply Codec.restores_buffered
  · intro depth shallow
    rwa [scalar]
  · rw [scalar, ofJson?_toJson]

theorem restores_list {A : Arrangement} (cs : List Cell) : (Codec.list Cell.codec).Restores A cs :=
  Codec.restores_list fun c _ => c.restores

end Cell

section
variable {A : Arrangement}

theorem Marker.restores {m : Marker} (finite : Binary64.isFinite m.opacity) :
    Marker.codec.Restores A m :=
  Record.restores_codec (by decide)
    ⟨Codec.restores_string _, Codec.restores_word32 _, Codec.restores_float finite, trivial⟩ rfl

theorem ScatterTrace.restores {t : ScatterTrace} (finite : Binary64.isFinite t.marker.opacity) :
    ScatterTrace.codec.Restores A t :=
  Record.restores_codec (by decide)
    ⟨Cell.restores_list _, Cell.restores_list _, Codec.restores_word _ _, Codec.restores_string _,
      Marker.restores finite, Codec.restores_word _ _, Codec.restores_string _,
      Codec.restores_string _, trivial⟩ rfl

theorem ContourTrace.restores (t : ContourTrace) : ContourTrace.codec.Restores A t :=
  Record.restores_codec (by decide)
    ⟨Cell.restores_list _, Cell.restores_list _, Codec.restores_string _, Codec.restores_word32 _,
      Codec.restores_string _, Codec.restores_bool _, Codec.restores_bool _,
      Codec.restores_word _ _, Codec.restores_string _, Codec.restores_string _, trivial⟩ rfl

end

theorem ScatterTrace.within_codec : ScatterTrace.codec.Within 2 := by
  have marker : Marker.codec.Within 1 := Codec.within_record
    (by simp [Field.required, Codec.within_string, Codec.within_word32, Codec.within_float]) _ _
  exact Codec.within_record
    (by simp [Field.required, Cell.within_list, Codec.within_word, Codec.within_string, marker]) _ _

theorem ContourTrace.within_codec : ContourTrace.codec.Within 2 :=
  Codec.within_record
    (by simp [Field.required, Cell.within_list, Codec.within_word, Codec.within_string,
      Codec.within_bool, Codec.within_word32]) _ _

theorem Marker.finite_of_decode {depth : Nat} {w : Written} {m : Marker}
    (h : codec.decode depth w = .ok m) : Binary64.isFinite m.opacity := by
  obtain ⟨⟨color, size, opacity, _⟩, values, rfl⟩ := map_eq_ok.mp h
  obtain ⟨below, -, -, -, -, -, given, missing, -⟩ := Record.found_of_decode (by decide) values
  obtain ⟨v, read⟩ := Record.decoded_of_found given missing
  cases v with
  | number n =>
      cases n with
      | none => cases read
      | some n =>
          cases read
          exact n.finite_toFloat
  | _ => cases read

theorem ScatterTrace.finite_of_decode {depth : Nat} {w : Written} {t : ScatterTrace}
    (h : codec.decode depth w = .ok t) : Binary64.isFinite t.marker.opacity := by
  obtain ⟨⟨x, y, mode, name, marker, rest⟩, values, rfl⟩ := map_eq_ok.mp h
  obtain ⟨below, -, -, -, -, -, -, -, -, -, given, missing, -⟩ :=
    Record.found_of_decode (by decide) values
  obtain ⟨v, read⟩ := Record.decoded_of_found given missing
  exact Marker.finite_of_decode read

namespace Trace

/-- What the opacity of the markers must be to have a text. -/
def Finite : Trace → Prop
  | scatter t => Binary64.isFinite t.marker.opacity
  | contour _ => True

theorem nesting_toJson (t : Trace) : t.toJson.nesting ≤ 2 := by
  cases t with
  | scatter t => exact ScatterTrace.within_codec t
  | contour t => exact ContourTrace.within_codec t

/-- Nothing that is written reads as both kinds, whatever else it holds. -/
theorem not_both {depth depth' : Nat} {w : Written} {s : ScatterTrace} {c : ContourTrace}
    (hs : ScatterTrace.codec.decode depth w = .ok s)
    (hc : ContourTrace.codec.decode depth' w = .ok c) : False := by
  obtain ⟨_, values, -⟩ := map_eq_ok.mp hs
  obtain ⟨_, values', -⟩ := map_eq_ok.mp hc
  obtain ⟨_, -, found⟩ := Record.found_of_decode (by decide) values
  obtain ⟨_, -, found'⟩ := Record.found_of_decode (by decide) values'
  cases w with
  | object ms stop =>
      -- The type is found by its name, and each kind has its own.
      obtain ⟨v, _, member, kind⟩ := found.required 5 rfl rfl
      obtain ⟨v', _, member', kind'⟩ := found'.required 7 rfl rfl
      cases member.symm.trans member'
      exact absurd (Codec.word_unique kind kind') (by decide)
  | array items stop =>
      -- The types stand in different places; the name stands where the contours are counted.
      obtain ⟨v, _, item, name⟩ := found.required 3 rfl rfl
      obtain ⟨v', _, item', number⟩ := found'.required 3 rfl rfl
      cases item.symm.trans item'
      obtain rfl := Codec.written_of_string name
      cases number
  | null | bool b | number n | string s | stopped s =>
      obtain ⟨_, _, none, -⟩ := found.required 0 rfl rfl
      cases none

theorem contour_of_scatter {j : Json} {s : ScatterTrace}
    (h : ScatterTrace.codec.ofJson? j = some s) : ContourTrace.codec.ofJson? j = none := by
  rw [Option.eq_none_iff_forall_ne_some]
  intro c hc
  exact not_both (Codec.ofJson?_eq_some h) (Codec.ofJson?_eq_some hc)

theorem ofJson?_eq_scatter {j : Json} {s : ScatterTrace} :
    ofJson? j = some (scatter s) ↔ ScatterTrace.codec.ofJson? j = some s := by
  simp [ofJson?, Option.or_eq_some_iff]

/-- The kind that is tried first does not matter. -/
theorem ofJson?_contour_first (j : Json) :
    ofJson? j = ((ContourTrace.codec.ofJson? j).map contour).or
      ((ScatterTrace.codec.ofJson? j).map scatter) := by
  rw [ofJson?]
  cases hs : ScatterTrace.codec.ofJson? j with
  | none => simp
  | some s =>
      rw [contour_of_scatter hs]
      rfl

theorem ofJson?_eq_contour {j : Json} {c : ContourTrace} :
    ofJson? j = some (contour c) ↔ ContourTrace.codec.ofJson? j = some c := by
  simp [ofJson?_contour_first, Option.or_eq_some_iff]

theorem ofJson?_arranged (A : Arrangement) {t : Trace} (finite : t.Finite) :
    ofJson? (A.arrange t.toJson) = some t := by
  have shallow : t.toJson.nesting ≤ maxDepth := t.nesting_toJson.trans (by decide)
  cases t with
  | scatter t =>
      have back := Codec.ofJson?_arranged shallow (ScatterTrace.restores (A := A) finite)
      exact ofJson?_eq_scatter.mpr back
  | contour t =>
      have back := Codec.ofJson?_arranged shallow (ContourTrace.restores (A := A) t)
      exact ofJson?_eq_contour.mpr back

theorem restores {t : Trace} (finite : t.Finite) : codec.Restores .asWritten t :=
  Codec.restores_buffered (fun _ shallow => shallow) (ofJson?_arranged .asWritten finite)

/-- What was read has a text. -/
theorem finite_of_ofJson? {j : Json} {t : Trace} (h : ofJson? j = some t) : t.Finite := by
  cases t with
  | contour t => trivial
  | scatter t =>
      exact ScatterTrace.finite_of_decode (Codec.ofJson?_eq_some (ofJson?_eq_scatter.mp h))

theorem finite_of_decode {depth : Nat} {w : Written} {t : Trace}
    (h : codec.decode depth w = .ok t) : t.Finite := by
  obtain ⟨j, -, h⟩ := bind_eq_ok.mp h
  split at h
  · next found =>
    cases h
    exact finite_of_ofJson? found
  · cases h

/-- The shape of a value tells which kind of trace it is, if it is one: no value is both, so each
kind is read exactly where it can be read by itself, and it does not matter which one is tried
first. A trace that was read is read again from what is written for it, whatever the order of its
members. For a sound text all this is so of the value that it holds. -/
theorem told_by_shape (j : Json) :
    (∀ s c, ¬ (ScatterTrace.codec.ofJson? j = some s ∧ ContourTrace.codec.ofJson? j = some c)) ∧
    (∀ s, ofJson? j = some (scatter s) ↔ ScatterTrace.codec.ofJson? j = some s) ∧
    (∀ c, ofJson? j = some (contour c) ↔ ContourTrace.codec.ofJson? j = some c) ∧
    ofJson? j = ((ContourTrace.codec.ofJson? j).map contour).or
      ((ScatterTrace.codec.ofJson? j).map scatter) ∧
    (∀ t, ofJson? j = some t → (∀ A : Arrangement, ofJson? (A.arrange t.toJson) = some t) ∧
      codec.ofText (codec.text t) = .ok t ∧ codec.ofText (codec.indented t) = .ok t) ∧
    ∀ text, parse text = .ok j →
      (∀ s, ScatterTrace.codec.ofText text = .ok s ↔ ScatterTrace.codec.ofJson? j = some s) ∧
      (∀ c, ContourTrace.codec.ofText text = .ok c ↔ ContourTrace.codec.ofJson? j = some c) ∧
      ∀ t, codec.ofText text = .ok t ↔ ofJson? j = some t := by
  refine ⟨fun s c both => ?_, fun s => ofJson?_eq_scatter, fun c => ofJson?_eq_contour,
    ofJson?_contour_first j, fun t read => ?_, fun text parsed => ?_⟩
  · exact not_both (Codec.ofJson?_eq_some both.1) (Codec.ofJson?_eq_some both.2)
  · have finite := finite_of_ofJson? read
    have shallow : t.toJson.nesting ≤ maxDepth := t.nesting_toJson.trans (by decide)
    exact ⟨fun A => ofJson?_arranged A finite, Codec.ofText_text shallow (restores finite),
      Codec.ofText_indented shallow (restores finite)⟩
  · exact ⟨fun s => Codec.ofText_of_parse parsed _, fun c => Codec.ofText_of_parse parsed _,
      fun t => Codec.ofText_buffered parsed toJson ofJson?⟩

/-- A scatter trace as a list, with a cell of each kind and a mode that names its word. -/
def listed : Json :=
  .array [.array [.null, .bool true], .array [.string "2", .ofInt 7],
    .object [("markers", .null)], .string "p1", .array [.string "#015c0d", .ofInt 5, .ofInt 1],
    .string "scatter", .string "x", .string "y"]

def listedTrace : ScatterTrace :=
  ⟨[.null, .bool true], [.text "2", .ofInt 7], "p1", ⟨"#015c0d", 5, Binary64.ofInt 1⟩, "x", "y"⟩

/-- A contour whose type comes first, with a mode and a marker beside what it needs. -/
def crowded : Json :=
  .object [("type", .string "histogram2dcontour"), ("mode", .string "markers"),
    ("marker", .array []), ("yaxis", .string "y2"), ("xaxis", .string "x2"),
    ("showscale", .bool false), ("reversescale", .bool true), ("colorscale", .string "Hot"),
    ("ncontours", .ofInt 20), ("name", .string "p2"), ("y", .array []), ("x", .array [])]

def crowdedTrace : ContourTrace := ⟨[], [], "p2", 20, "Hot", true, false, "x2", "y2"⟩

theorem read_listed : ScatterTrace.codec.ofJson? listed = some listedTrace := rfl

theorem read_crowded : ContourTrace.codec.ofJson? crowded = some crowdedTrace := rfl

theorem listed_and_crowded_told :
    ofJson? listed = some (scatter listedTrace) ∧
      (∀ c, ContourTrace.codec.ofJson? listed ≠ some c) ∧
      ofJson? (scatter listedTrace).toJson.sorted = some (scatter listedTrace) ∧
      codec.ofText (codec.text (scatter listedTrace)) = .ok (scatter listedTrace) ∧
      ofJson? crowded = some (contour crowdedTrace) ∧
      (∀ s, ScatterTrace.codec.ofJson? crowded ≠ some s) ∧
      codec.ofText crowded.indentedText = .ok (contour crowdedTrace) := by
  obtain ⟨apart, isScatter, -, -, again, -⟩ := told_by_shape listed
  obtain ⟨apart', -, isContour, -, -, parsed⟩ := told_by_shape crowded
  have scattered := (isScatter _).mpr read_listed
  have contoured := (isContour _).mpr read_crowded
  obtain ⟨rearranged, text, -⟩ := again _ scattered
  have shallow : crowded.nesting ≤ maxDepth := by decide
  obtain ⟨-, -, read⟩ := parsed _ (parse_indentedText shallow)
  exact ⟨scattered, fun c hc => apart _ c ⟨read_listed, hc⟩, rearranged .byName, text, contoured,
    fun s hs => apart' s _ ⟨hs, read_crowded⟩, (read _).mpr contoured⟩

end Trace
end CorrelationPlot
