import CorrelationPlot.Proofs.CellText
import CorrelationPlot.Proofs.Characters
import CorrelationPlot.Proofs.Sketch.Drawing

/-!
Colours as texts. A text is a colour when it is a hash and three or six hexadecimal digits, blanks
around it apart; every colour has one text in lower case, which is read as that colour. Reading
takes the digits one by one here; cutting them out of the bytes of the text does the same.
-/
namespace CorrelationPlot

theorem Hex.isBlank_digit : ∀ n < 16, Blank.isBlank (digit n) = false := by
  decide

namespace Rgb

/-- The texts of a colour: a hash, and two digits or one for each channel. -/
inductive HexText : List Char → Rgb → Prop
  | long {r r' g g' b b' : Char} {c : Rgb} (red : Hex.Pair r r' c.red)
      (green : Hex.Pair g g' c.green) (blue : Hex.Pair b b' c.blue) :
      HexText ['#', r, r', g, g', b, b'] c
  | short {r g b : Char} {c : Rgb} (red : Hex.Double r c.red) (green : Hex.Double g c.green)
      (blue : Hex.Double b c.blue) : HexText ['#', r, g, b] c

theorem ofChannels?_eq_some {r g b : Option UInt8} {c : Rgb} :
    ofChannels? r g b = some c ↔ r = some c.red ∧ g = some c.green ∧ b = some c.blue := by
  obtain ⟨red, green, blue⟩ := c
  cases r <;> cases g <;> cases b <;> simp [ofChannels?]

theorem ofHex?_eq_some {text : String} {c : Rgb} :
    ofHex? text = some c ↔ HexText (Blank.trim text.toList) c := by
  rw [ofHex?]
  split
  · next long =>
    simp only [ofChannels?_eq_some, Hex.byte?_eq_some, long]
    constructor
    · rintro ⟨red, green, blue⟩
      exact .long red green blue
    · rintro (⟨red, green, blue⟩ | _)
      exact ⟨red, green, blue⟩
  · next short =>
    simp only [ofChannels?_eq_some, Hex.byte?_eq_some, short, ← Hex.double_iff]
    constructor
    · rintro ⟨red, green, blue⟩
      exact .short red green blue
    · rintro (_ | ⟨red, green, blue⟩)
      exact ⟨red, green, blue⟩
  · next long short =>
    refine iff_of_false nofun fun h => ?_
    generalize Blank.trim text.toList = t at long short h
    cases h with
    | long => exact long _ _ _ _ _ _ rfl
    | short => exact short _ _ _ rfl

theorem HexText.digits {t : List Char} {c : Rgb} (h : HexText t c) :
    ∃ hex, t = '#' :: hex ∧ ∀ d ∈ hex, ∃ v, Hex.value? d = some v := by
  have value {d : Char} {v : Nat} (h : Hex.Denotes d v) : ∃ v, Hex.value? d = some v :=
    ⟨v, Hex.value?_of_denotes h⟩
  cases h with
  | long red green blue =>
      obtain ⟨_, _, r, r', -⟩ := red
      obtain ⟨_, _, g, g', -⟩ := green
      obtain ⟨_, _, b, b', -⟩ := blue
      refine ⟨_, rfl, ?_⟩
      simp only [List.forall_mem_cons]
      exact ⟨value r, value r', value g, value g', value b, value b', nofun⟩
  | short red green blue =>
      obtain ⟨_, r, -⟩ := red
      obtain ⟨_, g, -⟩ := green
      obtain ⟨_, b, -⟩ := blue
      refine ⟨_, rfl, ?_⟩
      simp only [List.forall_mem_cons]
      exact ⟨value r, value g, value b, nofun⟩

theorem ofHex_eq_ok {text : String} {c : Rgb} :
    ofHex text = .ok c ↔ HexText (Blank.trim text.toList) c := by
  rw [← ofHex?_eq_some, ofHex]
  cases ofHex? text <;> simp

theorem ofHex_eq_error {text : String} {f : PlotFault} :
    ofHex text = .error f ↔
      (∀ c, ¬ HexText (Blank.trim text.toList) c) ∧ f = .badColor text := by
  simp only [← ofHex?_eq_some, ofHex]
  cases ofHex? text <;> simp [eq_comm]

theorem toList_hex (c : Rgb) : c.hex.toList =
    '#' :: Hex.byte c.red ++ Hex.byte c.green ++ Hex.byte c.blue := String.toList_ofList

/-- A hash and six digits, none of them a capital. -/
theorem hex_lower (c : Rgb) : ∃ digits, c.hex.toList = '#' :: digits ∧ digits.length = 6 ∧
    ∀ d ∈ digits, d ∈ "0123456789abcdef".toList := by
  have lower (v : UInt8) : ∀ d ∈ Hex.byte v, d ∈ "0123456789abcdef".toList := by
    have below := v.toNat_lt
    simp only [Hex.byte, List.forall_mem_cons]
    exact ⟨Hex.mem_lower_digit _ (by omega), Hex.mem_lower_digit _ (by omega), nofun⟩
  refine ⟨Hex.byte c.red ++ Hex.byte c.green ++ Hex.byte c.blue, c.toList_hex, rfl, ?_⟩
  simp only [List.forall_mem_append]
  exact ⟨⟨lower _, lower _⟩, lower _⟩

theorem trim_hex (c : Rgb) : Blank.trim c.hex.toList = c.hex.toList := by
  have visible (v : UInt8) : ∀ d ∈ Hex.byte v, Blank.isBlank d = false := by
    have below := v.toNat_lt
    simp only [Hex.byte, List.forall_mem_cons]
    exact ⟨Hex.isBlank_digit _ (by omega), Hex.isBlank_digit _ (by omega), nofun⟩
  apply Blank.trim_of_visible
  rw [toList_hex]
  simp only [List.forall_mem_append, List.forall_mem_cons]
  exact ⟨⟨⟨by decide, visible _⟩, visible _⟩, visible _⟩

theorem ofHex?_hex (c : Rgb) : ofHex? c.hex = some c := by
  rw [ofHex?_eq_some, trim_hex, toList_hex]
  exact .long (Hex.pair_byte _) (Hex.pair_byte _) (Hex.pair_byte _)

theorem hex_injective {c c' : Rgb} (h : c.hex = c'.hex) : c = c' := by
  have read := c.ofHex?_hex
  rw [h, ofHex?_hex] at read
  exact (Option.some.inj read).symm

section Bytes

/-- How many bytes characters take. -/
def byteLength (cs : List Char) : Nat := (cs.map Char.utf8Size).sum

/-- Cuts characters at an offset in bytes. An offset behind the end or inside a character is no
place to cut. -/
def cut? : Nat → List Char → Option (List Char × List Char)
  | 0, cs => some ([], cs)
  | _ + 1, [] => none
  | n + 1, c :: cs =>
    if c.utf8Size ≤ n + 1 then
      (cut? (n + 1 - c.utf8Size) cs).map fun (front, back) => (c :: front, back)
    else none

/-- The characters from one offset to another. -/
def slice? (start stop : Nat) (cs : List Char) : Option (List Char) := do
  let (front, _) ← cut? stop cs
  let (_, slice) ← cut? start front
  some slice

/-- A number of 8 bits in hexadecimal digits, of which a plus sign may stand in front. -/
def radix16? (cs : List Char) : Option UInt8 :=
  let ds := match cs with
    | '+' :: rest => rest
    | _ => cs
  match ds.mapM Hex.value? with
  | some (v :: vs) =>
    let n := vs.foldl (16 * · + ·) v
    if n < UInt8.size then some (UInt8.ofNat n) else none
  | _ => none

/-- The colour in digits whose channels are cut out of them; none at all where there is no place to
cut. -/
def ofSlices (hex : List Char) : Option (Option Rgb) :=
  match byteLength hex with
  | 6 => do
    let r ← slice? 0 2 hex
    let g ← slice? 2 4 hex
    let b ← slice? 4 6 hex
    some (ofChannels? (radix16? r) (radix16? g) (radix16? b))
  | 3 => do
    let r ← slice? 0 1 hex
    let g ← slice? 1 2 hex
    let b ← slice? 2 3 hex
    some (ofChannels? ((radix16? r).map (17 * ·)) ((radix16? g).map (17 * ·))
      ((radix16? b).map (17 * ·)))
  | _ => some none

/-- Reads a colour from the bytes of its text. -/
def ofHexBytes (text : String) : Option (Except PlotFault Rgb) :=
  let refused : Except PlotFault Rgb := .error (.badColor text)
  match Blank.trim text.toList with
  | '#' :: hex =>
    if hex.all fun c => (Hex.value? c).isSome then
      (ofSlices hex).map fun c? => c?.elim refused .ok
    else some refused
  | _ => some refused

theorem cut?_of_ascii {cs : List Char} (ascii : ∀ c ∈ cs, c.utf8Size = 1) {n : Nat}
    (inside : n ≤ cs.length) : cut? n cs = some (cs.take n, cs.drop n) := by
  induction cs generalizing n with
  | nil =>
      obtain rfl : n = 0 := Nat.le_zero.mp inside
      rfl
  | cons c cs ih =>
      obtain ⟨one, ascii⟩ := List.forall_mem_cons.mp ascii
      cases n with
      | zero => rfl
      | succ n =>
          have rest := ih ascii (Nat.le_of_succ_le_succ inside)
          rw [cut?, one, if_pos (Nat.le_add_left 1 n), Nat.add_sub_cancel, rest]
          rfl

theorem slice?_of_ascii {cs : List Char} (ascii : ∀ c ∈ cs, c.utf8Size = 1) {start stop : Nat}
    (order : start ≤ stop) (inside : stop ≤ cs.length) :
    slice? start stop cs = some ((cs.take stop).drop start) := by
  have front : ∀ c ∈ cs.take stop, c.utf8Size = 1 := fun c hc => ascii c (List.mem_of_mem_take hc)
  have short : start ≤ (cs.take stop).length := by
    rw [List.length_take]
    omega
  rw [slice?, cut?_of_ascii ascii inside]
  simp only [Option.bind_eq_bind, Option.bind_some, cut?_of_ascii front short]

theorem byteLength_of_ascii {cs : List Char} (ascii : ∀ c ∈ cs, c.utf8Size = 1) :
    byteLength cs = cs.length := by
  rw [byteLength, List.map_congr_left ascii, List.map_const', List.sum_replicate_nat, Nat.mul_one]

theorem utf8Size_of_value? {c : Char} {v : Nat} (h : Hex.value? c = some v) : c.utf8Size = 1 := by
  rw [Char.utf8Size_eq_one_iff, UInt32.le_iff_toNat_le]
  exact Nat.le_of_lt_succ (Hex.lt_of_value? h)

/-- A digit is no sign. -/
theorem ne_plus_of_value? {c : Char} {v : Nat} (h : Hex.value? c = some v) : c ≠ '+' := by
  rintro rfl
  cases h

theorem radix16?_pair {a b : Char} {m n : Nat} (ha : Hex.value? a = some m)
    (hb : Hex.value? b = some n) : radix16? [a, b] = Hex.byte? a b := by
  have high := (Hex.value?_eq_some.mp ha).lt
  have low := (Hex.value?_eq_some.mp hb).lt
  have small : 16 * m + n < UInt8.size := by
    have size : UInt8.size = 256 := rfl
    omega
  simp [radix16?, ne_plus_of_value? ha, Hex.byte?, ha, hb, small]

theorem radix16?_single {a : Char} {m : Nat} (ha : Hex.value? a = some m) :
    (radix16? [a]).map (17 * ·) = Hex.byte? a a := by
  have digit := (Hex.value?_eq_some.mp ha).lt
  have small : m < UInt8.size := by
    have size : UInt8.size = 256 := rfl
    omega
  have twice : 17 * UInt8.ofNat m = UInt8.ofNat (16 * m + m) := by
    rw [← Nat.succ_mul, UInt8.ofNat_mul]
    rfl
  simp [radix16?, ne_plus_of_value? ha, Hex.byte?, ha, small, twice]

/-- Digits take one byte each, so every offset up to the end is a place to cut. -/
theorem ofSlices_of_digits {text : String} {hex : List Char}
    (trimmed : Blank.trim text.toList = '#' :: hex)
    (digits : ∀ c ∈ hex, ∃ v, Hex.value? c = some v) : ofSlices hex = some (ofHex? text) := by
  have ascii : ∀ c ∈ hex, c.utf8Size = 1 := fun c hc => by
    obtain ⟨v, hv⟩ := digits c hc
    exact utf8Size_of_value? hv
  have slice (start stop : Nat) (order : start ≤ stop) (inside : stop ≤ hex.length) :=
    slice?_of_ascii ascii order inside
  rw [ofSlices, byteLength_of_ascii ascii, ofHex?, trimmed]
  by_cases long : hex.length = 6
  · obtain ⟨a, b, c, d, e, f, rfl⟩ : ∃ a b c d e f, hex = [a, b, c, d, e, f] := by
      match hex, long with
      | [a, b, c, d, e, f], _ => exact ⟨a, b, c, d, e, f, rfl⟩
    simp only [List.forall_mem_cons] at digits
    obtain ⟨⟨_, ha⟩, ⟨_, hb⟩, ⟨_, hc⟩, ⟨_, hd⟩, ⟨_, he⟩, ⟨_, hf⟩, -⟩ := digits
    have red : slice? 0 2 [a, b, c, d, e, f] = some [a, b] := slice 0 2 (by decide) (by simp)
    have green : slice? 2 4 [a, b, c, d, e, f] = some [c, d] := slice 2 4 (by decide) (by simp)
    have blue : slice? 4 6 [a, b, c, d, e, f] = some [e, f] := slice 4 6 (by decide) le_rfl
    simp only [List.length_cons, List.length_nil, red, green, blue, Option.bind_eq_bind,
      Option.bind_some, radix16?_pair ha hb, radix16?_pair hc hd, radix16?_pair he hf]
  · by_cases short : hex.length = 3
    · obtain ⟨a, b, c, rfl⟩ : ∃ a b c, hex = [a, b, c] := by
        match hex, short with
        | [a, b, c], _ => exact ⟨a, b, c, rfl⟩
      simp only [List.forall_mem_cons] at digits
      obtain ⟨⟨_, ha⟩, ⟨_, hb⟩, ⟨_, hc⟩, -⟩ := digits
      have red : slice? 0 1 [a, b, c] = some [a] := slice 0 1 (by decide) (by simp)
      have green : slice? 1 2 [a, b, c] = some [b] := slice 1 2 (by decide) (by simp)
      have blue : slice? 2 3 [a, b, c] = some [c] := slice 2 3 (by decide) le_rfl
      simp only [List.length_cons, List.length_nil, red, green, blue, Option.bind_eq_bind,
        Option.bind_some, radix16?_single ha, radix16?_single hb, radix16?_single hc]
    · split
      · next six => exact absurd six long
      · next three => exact absurd three short
      · split
        · next same =>
          cases same
          exact absurd rfl long
        · next same =>
          cases same
          exact absurd rfl short
        · rfl

theorem ofHexBytes_eq (text : String) : ofHexBytes text = some (ofHex text) := by
  rw [ofHexBytes]
  split
  · next hex trimmed =>
    split
    · next digits =>
      have valued : ∀ c ∈ hex, ∃ v, Hex.value? c = some v := fun c hc =>
        Option.isSome_iff_exists.mp (List.all_eq_true.mp digits c hc)
      rw [ofSlices_of_digits trimmed valued, ofHex]
      cases ofHex? text <;> rfl
    · next other =>
      refine (congrArg some (ofHex_eq_error.mpr ⟨fun c h => other ?_, rfl⟩)).symm
      obtain ⟨hex', same, digits⟩ := h.digits
      cases trimmed.symm.trans same
      exact List.all_eq_true.mpr fun d hd => Option.isSome_iff_exists.mpr (digits d hd)
  · next other =>
    refine (congrArg some (ofHex_eq_error.mpr ⟨fun c h => ?_, rfl⟩)).symm
    obtain ⟨hex, same, -⟩ := h.digits
    exact other hex same

end Bytes

/-- A marker has the colour of its series on the ramp, and can be seen. -/
theorem marker_of_drawn {cs : Columns} {display : Display} {i : Nat} {s : Series}
    {t : ScatterTrace} (h : .scatter t ∈ Prepared.drawn cs display i s) :
    t.marker.color = (Ramp.ofSeries i).hex ∧ (!(t.marker.opacity == 0)) = true := by
  rw [Prepared.drawn, List.mem_cons] at h
  rcases h with same | h
  · cases same
    exact ⟨rfl, Sketch.markerStyle_visible display⟩
  · split at h
    · cases List.mem_singleton.mp h
    · cases h

theorem marker_of_tables {tables : List Table} {view : View} {fixed : Nat} {p : Prepared}
    (h : Prepared.ofTables tables view fixed = .ok p) {t : ScatterTrace}
    (ht : .scatter t ∈ p.traces) :
    ∃ i, t.marker.color = (Ramp.ofSeries i).hex ∧ (!(t.marker.opacity == 0)) = true := by
  rcases Prepared.ofTables_eq_ok h with ⟨-, grid, -, rfl⟩ | ⟨_, _, _, cs, -, -, -, -, -, rfl⟩
  · cases ht
  · obtain ⟨block, hblock, here⟩ := List.mem_flatten.mp ht
    obtain ⟨i, _, rfl⟩ := List.mem_mapIdx.mp hblock
    exact ⟨i, marker_of_drawn here⟩

/-- A circle in a colour for each point of a trace. -/
def disks (f : Sketch.Frame) (a : Sketch.Axes) (radius : Int) (c : Rgb) (t : ScatterTrace) :
    List Shape :=
  (Sketch.points (.scatter t)).map fun q =>
    let (x, y) := Sketch.pixel f a q
    .circle x y radius t.marker.opacity c

theorem markerShapes_of_hex {t : ScatterTrace} {c : Rgb} (h : t.marker.color = c.hex)
    (f : Sketch.Frame) (a : Sketch.Axes) :
    ∃ radius, Sketch.markerShapes f a t = disks f a radius c t := by
  refine ⟨max (t.marker.size.toNat / 2) 1, ?_⟩
  rw [Sketch.markerShapes, h, ofHex?_hex, Option.getD_some, disks]

section Drawn
variable {doc : PlotDocument} {width height : Nat} {sketch : Sketch}

/-- The circles of a trace stand together in the sketch, in the colour that the trace was given. -/
theorem disks_of_draw (drawn : Sketch.draw doc width height = .ok sketch) {t : ScatterTrace}
    {c : Rgb} {k : Nat} (color : t.marker.color = c.hex)
    (visible : (!(t.marker.opacity == 0)) = true) (listed : .scatter t ∈ doc.traces)
    (axis : Panel.ofAxis? t.xAxis = some k) (inside : k < doc.layout.grid.size)
    (shown : Sketch.points (.scatter t) ≠ []) :
    ∃ panel ∈ sketch.panels, ∃ f a radius, disks f a radius c t <:+: panel.shapes := by
  obtain ⟨-, rfl⟩ := Sketch.draw_eq_ok.mp drawn
  have here : .scatter t ∈ Sketch.panelTraces doc k :=
    List.mem_filter.mpr ⟨listed, decide_eq_true axis⟩
  obtain ⟨panel, hpanel, block⟩ := Sketch.seen_infix_of_trace here inside shown
    (Sketch.sides doc width height).1 (Sketch.sides doc width height).2
  rw [Sketch.seen_scatter visible] at block
  obtain ⟨radius, same⟩ := markerShapes_of_hex color _ _
  exact ⟨panel, hpanel, _, _, radius, same ▸ block⟩

/-- No circle of the sketch has a colour of its own. -/
theorem color_of_circle (drawn : Sketch.draw doc width height = .ok sketch) {panel : PanelDrawing}
    {shape : Shape} (hpanel : panel ∈ sketch.panels) (hshape : shape ∈ panel.shapes)
    (circle : shape.isCircle) :
    ∃ t, .scatter t ∈ doc.traces ∧ ∀ c : Rgb, t.marker.color = c.hex →
      ∃ x y radius, shape = .circle x y radius t.marker.opacity c := by
  obtain ⟨-, rfl⟩ := Sketch.draw_eq_ok.mp drawn
  obtain ⟨t, f, a, listed, here⟩ := Sketch.exists_scatter_of_circle hpanel hshape circle
  refine ⟨t, listed, fun c color => ?_⟩
  obtain ⟨radius, same⟩ := markerShapes_of_hex color f a
  rw [same] at here
  obtain ⟨q, -, rfl⟩ := List.mem_map.mp here
  exact ⟨_, _, _, rfl⟩

end Drawn

/-- Reading accepts exactly the texts of colours and refuses every other text as it is. It never
cuts the bytes of a text inside a character. Every colour has one text of six lower-case digits,
which is read as that colour, so the markers of a plot are sketched in the colours that they were
given: every sketch of the plot has the circles of every trace with points that it has a cell for,
and no circles in other colours. -/
theorem color_of_text (text : String) :
    (∀ c, ofHex text = .ok c ↔ HexText (Blank.trim text.toList) c) ∧
    (∀ f, ofHex text = .error f ↔
      (∀ c, ¬ HexText (Blank.trim text.toList) c) ∧ f = .badColor text) ∧
    ofHexBytes text = some (ofHex text) ∧
    (∀ c, ofHex text = .ok c →
      (∃ digits, c.hex.toList = '#' :: digits ∧ digits.length = 6 ∧
        ∀ d ∈ digits, d ∈ "0123456789abcdef".toList) ∧
      ofHex c.hex = .ok c ∧
      ∀ text' c', ofHex text' = .ok c' → (c.hex = c'.hex ↔ c = c')) ∧
    ∀ tables view fixed p, Prepared.ofTables tables view fixed = .ok p →
      (∀ t, .scatter t ∈ p.traces → ∃ i c, ({} : Ramp).color i = .ok c ∧
        t.marker.color = c.hex ∧
        (∀ f a, ∃ radius, Sketch.markerShapes f a t = disks f a radius c t) ∧
        ∀ doc width height sketch k, doc.traces = p.traces →
          Sketch.draw doc width height = .ok sketch → Panel.ofAxis? t.xAxis = some k →
          k < doc.layout.grid.size → Sketch.points (.scatter t) ≠ [] →
          ∃ panel ∈ sketch.panels, ∃ f a radius, disks f a radius c t <:+: panel.shapes) ∧
      ∀ doc width height sketch, doc.traces = p.traces →
        Sketch.draw doc width height = .ok sketch →
        ∀ panel ∈ sketch.panels, ∀ shape ∈ panel.shapes, shape.isCircle →
          ∃ t i c, .scatter t ∈ p.traces ∧ ({} : Ramp).color i = .ok c ∧
            t.marker.color = c.hex ∧
            ∃ x y radius, shape = .circle x y radius t.marker.opacity c := by
  refine ⟨fun c => ofHex_eq_ok, fun f => ofHex_eq_error, ofHexBytes_eq text, ?_, ?_⟩
  · intro c _
    refine ⟨c.hex_lower, ?_, fun _ c' _ => ⟨hex_injective, congrArg hex⟩⟩
    rw [ofHex, ofHex?_hex]
  · intro tables view fixed p made
    constructor
    · intro t ht
      obtain ⟨i, color, visible⟩ := marker_of_tables made ht
      refine ⟨i, _, Ramp.color_default i, color, markerShapes_of_hex color, ?_⟩
      intro doc width height sketch k same drawn axis inside shown
      exact disks_of_draw drawn color visible (same ▸ ht) axis inside shown
    · intro doc width height sketch same drawn panel hpanel shape hshape circle
      obtain ⟨t, listed, filled⟩ := color_of_circle drawn hpanel hshape circle
      rw [same] at listed
      obtain ⟨i, color, -⟩ := marker_of_tables made listed
      exact ⟨t, i, _, listed, Ramp.color_default i, color, filled _ color⟩

/-- The plot of the pumps, in the default layout. -/
def pumpsDocument : PlotDocument :=
  ⟨(Prepared.pumps.series.mapIdx (Prepared.drawn ⟨2, 1⟩ .density)).flatten, {}, {}⟩

/-- White in six capitals and in three small digits; three letters of six bytes are refused. A pump
is drawn in the colour of the seed. -/
theorem white_of_texts :
    ofHex " #FFFFFF\n" = .ok ⟨255, 255, 255⟩ ∧ ofHex "#fff" = .ok ⟨255, 255, 255⟩ ∧
      ofHex (hex ⟨255, 255, 255⟩) = .ok ⟨255, 255, 255⟩ ∧
      ofHex "#ééé" = .error (.badColor "#ééé") ∧
      ofHexBytes "#ééé" = some (.error (.badColor "#ééé")) ∧
      ∃ sketch, Sketch.draw pumpsDocument 800 600 = .ok sketch ∧ ∃ panel ∈ sketch.panels,
        ∃ x y radius opacity, .circle x y radius opacity ⟨0x01, 0x5c, 0x0d⟩ ∈ panel.shapes := by
  have six : Blank.trim " #FFFFFF\n".toList = ['#', 'F', 'F', 'F', 'F', 'F', 'F'] := by decide
  have three : Blank.trim "#fff".toList = ['#', 'f', 'f', 'f'] := by decide
  have letters : Blank.trim "#ééé".toList = ['#', 'é', 'é', 'é'] := by decide
  have pair : Hex.Pair 'F' 'F' 255 := ⟨15, 15, by decide, by decide, rfl⟩
  have double : Hex.Double 'f' 255 := ⟨15, by decide, rfl⟩
  have none (c : Rgb) : ¬ HexText (Blank.trim "#ééé".toList) c := by
    intro h
    obtain ⟨_, same, digits⟩ := h.digits
    cases letters.symm.trans same
    obtain ⟨_, ⟨⟩⟩ := digits 'é' List.mem_cons_self
  have capitals : HexText (Blank.trim " #FFFFFF\n".toList) ⟨255, 255, 255⟩ := by
    rw [six]
    exact .long pair pair pair
  have small : HexText (Blank.trim "#fff".toList) ⟨255, 255, 255⟩ := by
    rw [three]
    exact .short double double double
  obtain ⟨long, -, -, written, -⟩ := color_of_text " #FFFFFF\n"
  obtain ⟨short, -, -, -, plots⟩ := color_of_text "#fff"
  obtain ⟨-, refused, bytes, -⟩ := color_of_text "#ééé"
  have white := (long _).mpr capitals
  have error := (refused _).mpr ⟨none, rfl⟩
  have filled : Prepared.pumps.series ≠ [] := nofun
  have plotted : Prepared.ofTables [Prepared.pumps] Prepared.pumpsView 2 = .ok _ :=
    (Prepared.ofTables_cons_eq_ok filled).mpr ⟨⟨1, 2⟩, ⟨2, 1⟩, rfl, rfl, by decide, rfl⟩
  have drawn : Sketch.draw pumpsDocument 800 600 = .ok _ :=
    Sketch.draw_eq_ok.mpr ⟨by decide, rfl⟩
  obtain ⟨_, c, -, color, -, colored⟩ := (plots _ _ _ _ plotted).1 _ List.mem_cons_self
  obtain rfl : _ = c := hex_injective color
  obtain ⟨panel, here, f, a, radius, block⟩ :=
    colored pumpsDocument 800 600 _ 0 rfl drawn rfl (by decide) nofun
  exact ⟨white, (short _).mpr small, (written _ white).2.1, error,
    bytes.trans (congrArg some error), _, drawn, panel, here, _, _, radius, _,
    Ramp.color_zero (Ramp.color_default 0) ▸ block.subset List.mem_cons_self⟩

end Rgb
end CorrelationPlot
