import CorrelationPlot.Proofs.Script.Tokens

/-!
The readers of arguments and components read exactly those of the grammar.
-/
namespace CorrelationPlot.Script
open Grammar Outcome

variable {α β γ κ : Type}

theorem last_iff (carry : γ → β) (f : β → Option γ) (inverse : ∀ b v, f b = some v ↔ b = carry v)
    (list : List β) (o : Option γ) : (list.filterMap f).getLast? = o ↔ Last carry list o := by
  have absent : ∀ bs : List β, bs.filterMap f = [] ↔ ∀ w, carry w ∉ bs := by
    intro bs
    rw [List.filterMap_eq_nil_iff]
    constructor
    · intro dropped w member
      have kept := (inverse _ w).mpr rfl
      rw [dropped _ member] at kept
      cases kept
    · intro missing b member
      rw [Option.eq_none_iff_forall_ne_some]
      intro w kept
      exact missing w ((inverse b w).mp kept ▸ member)
  cases o with
  | none => rw [List.getLast?_eq_none_iff, absent, Last]
  | some v =>
      rw [List.getLast?_eq_some_iff, Last]
      constructor
      · intro ⟨front, split⟩
        obtain ⟨before, tail, rfl, -, rest⟩ := List.filterMap_eq_append_iff.mp split
        obtain ⟨skipped, b, behind, rfl, -, kept, dropped⟩ := List.filterMap_eq_cons_iff.mp rest
        obtain rfl := (inverse b v).mp kept
        exact ⟨before ++ skipped, behind, (List.append_assoc ..).symm, (absent behind).mp dropped⟩
      · rintro ⟨before, behind, rfl, missing⟩
        have kept := (inverse (carry v) v).mpr rfl
        refine ⟨before.filterMap f, ?_⟩
        rw [List.filterMap_append, List.filterMap_cons_some kept, (absent behind).mpr missing]

theorem lastArgument_iff [DecidableEq κ] {key : κ} {as : List (κ × String)} {o : Option String} :
    lastArgument key as = o ↔ Last (fun v => (key, v)) as o := by
  have inverse : ∀ (a : κ × String) v,
      (if a.1 = key then some a.2 else none) = some v ↔ a = (key, v) := by
    intro ⟨k, w⟩ v
    simp [Prod.ext_iff]
  have same : lastArgument key as =
      (as.filterMap fun a => if a.1 = key then some a.2 else none).getLast? := by
    rw [lastArgument, ← List.getLast?_map]
    congr 1
    induction as with
    | nil => rfl
    | cons a as ih => by_cases h : a.1 = key <;> simp [h, ih]
  rw [same, last_iff _ _ inverse]

theorem columns?_eq_some {v : Float} {columns : UInt64} :
    columns? v = some columns ↔ Columns v columns := by
  have size : UInt64.size = 2 ^ 64 := rfl
  unfold columns? Columns
  constructor
  · intro h
    split at h
    · next fits =>
        obtain ⟨finite, large, whole⟩ := fits
        obtain rfl := Option.some.inj h
        have natural : ((Binary64.floor v).toNat : ℤ) = Binary64.floor v :=
          Int.toNat_of_nonneg (by omega)
        refine ⟨finite, (Binary64.floor v).toNat, ?_, by omega, ?_⟩
        · exact_mod_cast Binary64.value_eq_intCast.mpr ⟨natural.symm, whole.trans natural.symm⟩
        · rw [Binary64.toIntWithin, if_pos finite]
          congr 1
          omega
    · cases h
  · intro ⟨finite, n, natural, positive, last⟩
    obtain ⟨floor, ceil⟩ := (Binary64.value_eq_intCast (n := n)).mp (by exact_mod_cast natural)
    rw [if_pos ⟨finite, by omega, by omega⟩, Binary64.toIntWithin, if_pos finite, floor, last]
    congr 2
    omega

theorem pixels?_eq_some {v : Float} {pixels : UInt32} :
    pixels? v = some pixels ↔ Pixels v pixels := by
  have low : 1 ≤ ⌊Binary64.value v⌋ ↔ 1 ≤ Binary64.value v := by
    rw [Int.le_floor, Int.cast_one]
  have high : ⌈Binary64.value v⌉ < (UInt32.size : ℤ) ↔ Binary64.value v ≤ 4294967295 := by
    have size : (UInt32.size : ℤ) = 4294967295 + 1 := rfl
    rw [size, Int.lt_add_one_iff, Int.ceil_le]
    norm_num
  simp only [pixels?, Pixels, ← Binary64.floor_value, ← Binary64.ceil_value, low, high]
  constructor
  · intro h
    split at h
    · next fits => exact ⟨fits.1, fits.2.1, fits.2.2, (Option.some.inj h).symm⟩
    · cases h
  · rintro ⟨finite, least, greatest, rfl⟩
    rw [if_pos ⟨finite, least, greatest⟩]

theorem keyword_open : Keyword '(' openParen (Word "(") := keyword_mark rfl rfl

theorem keyword_close : Keyword ')' closeParen (Word ")") := keyword_mark rfl rfl

theorem keyword_comma : Keyword ',' comma (Word ",") := keyword_mark rfl rfl

theorem reads_argument {key : κ} {name : String} {first : Char} {more : List Char}
    {value : Reader String} {language : List Char → String → Prop}
    (spelled : name.toList = first :: more) (visible : isBlank first = false)
    (h : Lexes value language Delimits) :
    ReadsFrom [first] (argument key name.toList value) (Argument key name language) Delimits := by
  have behind : ReadsFrom [first]
      (Reader.after (Reader.spaced (Reader.word name.toList)) value.spaced)
      (Phrase.behind (Word name) (Token language)) Delimits :=
    (keyword_word spelled visible).lead fun _ => h.spaced
  refine behind.map.congr ?_
  intro cs ⟨k, v⟩ rest
  constructor
  · intro ⟨a, phrase, same⟩
    obtain ⟨rfl, rfl⟩ := Prod.mk.inj same
    exact ⟨rfl, phrase⟩
  · rintro ⟨rfl, phrase⟩
    exact ⟨v, phrase, rfl⟩

theorem reads_chartArgument :
    ReadsFrom ['x', 'y', 'd'] chartArgument ChartArgument Delimits := by
  have x : ReadsFrom ['x'] (argument ChartKey.x "x:".toList fieldName) _ _ :=
    reads_argument rfl rfl lexes_fieldName
  have y : ReadsFrom ['y'] (argument ChartKey.y "y:".toList fieldName) _ _ :=
    reads_argument rfl rfl lexes_fieldName
  have display : ReadsFrom ['d'] (argument ChartKey.display "display:".toList quoted) _ _ :=
    reads_argument rfl rfl lexes_quoted
  exact x.orElse (y.orElse display (by simp)) (by simp)

theorem reads_appearanceArgument :
    ReadsFrom ['b', 't'] appearanceArgument AppearanceArgument Delimits := by
  have background : ReadsFrom ['b']
      (argument AppearanceKey.background "background:".toList quoted) _ _ :=
    reads_argument rfl rfl lexes_quoted
  have text : ReadsFrom ['t'] (argument AppearanceKey.text "text:".toList quoted) _ _ :=
    reads_argument rfl rfl lexes_quoted
  exact background.orElse text (by simp)

theorem delimits_comma {cs rest : List Char} (h : Word "," cs () rest) : Delimits (ahead cs) :=
  .inl (keyword_comma.starts h)

theorem delimits_close {cs rest : List Char} (h : Word ")" cs () rest) : Delimits (ahead cs) :=
  .inr (keyword_close.starts h)

theorem reads_arguments {element : Reader α} {P : Phrase α} {start : List Char}
    (h : ReadsFrom start element P Delimits) (apart : ')' ∉ start) :
    Reads (arguments element) (Arguments P) Anything := by
  refine Reads.congr (keyword_open.then fun _ =>
    (Reads.separated keyword_comma h (.inl rfl)).bind (fun _ as =>
      keyword_close.then fun _ => Reads.verdict (· = as) ?_) ?_) ?_
  · intro cs as' rest
    simp [eq_comm]
  · intro as cs _ rest ⟨mid, close, _⟩ _
    refine ⟨⟨delimits_close close, ?_⟩, ?_⟩ <;> rw [keyword_close.starts close]
    · decide
    · intro c hc same
      obtain rfl := Option.some.inj same
      exact apart hc
  · intro cs as rest
    constructor
    · rintro ⟨inner, left, _, behind, list, _, right, rfl, rfl⟩
      exact ⟨inner, behind, left, list, right⟩
    · intro ⟨inner, behind, left, list, right⟩
      exact ⟨inner, left, as, behind, list, rest, right, rfl, rfl⟩

theorem chartOf_iff {arguments : List (ChartKey × String)} {part : ChartPart} :
    ChartOf arguments part ↔ lastArgument .x arguments = some part.x ∧
      lastArgument .y arguments = some part.y ∧ lastArgument .display arguments = part.display := by
  rw [lastArgument_iff, lastArgument_iff, lastArgument_iff]
  exact ⟨fun h => ⟨h.x, h.y, h.display⟩, fun ⟨x, y, display⟩ => ⟨x, y, display⟩⟩

theorem appearanceOf_iff {arguments : List (AppearanceKey × String)} {part : AppearancePart} :
    AppearanceOf arguments part ↔ lastArgument .background arguments = part.background ∧
      lastArgument .text arguments = part.text := by
  rw [lastArgument_iff, lastArgument_iff]
  exact ⟨fun h => ⟨h.background, h.text⟩, fun ⟨background, text⟩ => ⟨background, text⟩⟩

theorem reads_chart : ReadsFrom ['c'] readChart
    (fun cs c rest => ComponentText cs c rest ∧ ∃ part, c = .chart part) Anything := by
  refine ReadsFrom.congr ((keyword_word rfl rfl).lead fun front =>
    (reads_arguments reads_chartArgument (by simp)).bind (fun _ as =>
      Reads.verdict (fun c : Component => ∃ part, ChartOf as part ∧ c = .chart part) ?_)
      fun _ _ => trivial) ?_
  -- The last step accepts exactly the arguments that make a chart.
  · intro cs c rest
    dsimp only
    split
    · next x y hx hy =>
        simp only [Except.ok.injEq, Prod.mk.injEq]
        constructor
        · rintro ⟨rfl, rfl⟩
          exact ⟨⟨_, chartOf_iff.mpr ⟨hx, hy, rfl⟩, rfl⟩, rfl⟩
        · rintro ⟨⟨⟨x', y', display⟩, h, rfl⟩, rfl⟩
          obtain ⟨hx', hy', rfl⟩ := chartOf_iff.mp h
          obtain rfl := Option.some.inj (hx.symm.trans hx')
          obtain rfl := Option.some.inj (hy.symm.trans hy')
          exact ⟨rfl, rfl⟩
    · next lacking =>
        simp only [reduceCtorEq, false_iff]
        intro ⟨⟨part, h, _⟩, _⟩
        exact lacking _ _ (chartOf_iff.mp h).1 (chartOf_iff.mp h).2.1
  -- The steps one behind another are the rule of the grammar.
  · intro cs c rest
    constructor
    · rintro ⟨behind, word, as, _, list, ⟨part, h, rfl⟩, rfl⟩
      exact ⟨.chart word list h, part, rfl⟩
    · rintro ⟨text, part, rfl⟩
      cases text with
      | chart word list h => exact ⟨_, word, _, _, list, ⟨part, h, rfl⟩, rfl⟩

theorem reads_appearance : ReadsFrom ['a'] readAppearance
    (fun cs c rest => ComponentText cs c rest ∧ ∃ part, c = .appearance part) Anything := by
  refine ReadsFrom.congr ((keyword_word rfl rfl).lead fun _ =>
    (reads_arguments reads_appearanceArgument (by simp)).bind (fun _ as =>
      Reads.verdict (fun c : Component => ∃ part, AppearanceOf as part ∧ c = .appearance part) ?_)
      fun _ _ => trivial) ?_
  · intro cs c rest
    simp only [Except.ok.injEq, Prod.mk.injEq]
    constructor
    · rintro ⟨rfl, rfl⟩
      exact ⟨⟨_, appearanceOf_iff.mpr ⟨rfl, rfl⟩, rfl⟩, rfl⟩
    · rintro ⟨⟨⟨background, text⟩, h, rfl⟩, rfl⟩
      obtain ⟨rfl, rfl⟩ := appearanceOf_iff.mp h
      exact ⟨rfl, rfl⟩
  · intro cs c rest
    constructor
    · rintro ⟨behind, word, as, _, list, ⟨part, h, rfl⟩, rfl⟩
      exact ⟨.appearance word list h, part, rfl⟩
    · rintro ⟨text, part, rfl⟩
      cases text with
      | appearance word list h => exact ⟨_, word, _, _, list, ⟨part, h, rfl⟩, rfl⟩

theorem reads_grid : ReadsFrom ['g'] readGrid
    (fun cs c rest => ComponentText cs c rest ∧ ∃ n, c = .grid n) Anything := by
  refine ReadsFrom.congr ((keyword_word rfl rfl).lead fun front =>
    keyword_open.then fun _ => (keyword_word rfl rfl).then fun _ =>
    lexes_number.spaced.bind (fun _ v => keyword_close.then fun _ =>
      Reads.verdict (fun c : Component => ∃ n, Columns v n ∧ c = .grid n) ?_) ?_) ?_
  · intro cs c rest
    dsimp only
    simp only [← columns?_eq_some]
    cases columns? v with
    | none => simp
    | some n => simp [eq_comm]
  · intro _ cs c rest ⟨behind, close, _⟩ _
    exact delimits_close close
  · intro cs c rest
    constructor
    · rintro ⟨a, word, b, left, d, name, v, e, value, _, right, ⟨n, h, rfl⟩, rfl⟩
      exact ⟨.grid word left name value right h, n, rfl⟩
    · rintro ⟨text, n, rfl⟩
      cases text with
      | grid word left name value right h =>
          exact ⟨_, word, _, left, _, name, _, _, value, _, right, ⟨n, h, rfl⟩, rfl⟩

theorem reads_size : ReadsFrom ['s'] readSize
    (fun cs c rest => ComponentText cs c rest ∧ ∃ w h, c = .size w h) Anything := by
  refine ReadsFrom.congr ((keyword_word rfl rfl).lead fun front =>
    keyword_open.then fun _ => (keyword_word rfl rfl).then fun _ =>
    lexes_number.spaced.bind (fun _ v => keyword_comma.then fun _ =>
    (keyword_word rfl rfl).then fun _ =>
    lexes_number.spaced.bind (fun _ w => keyword_close.then fun _ =>
      Reads.verdict (fun c : Component => ∃ width height,
        Pixels v width ∧ Pixels w height ∧ c = .size width height) ?_) ?_) ?_) ?_
  · intro cs c rest
    dsimp only
    simp only [← pixels?_eq_some]
    cases pixels? v with
    | none => simp
    | some width => cases pixels? w <;> simp [eq_comm]
  · intro _ cs c rest ⟨behind, close, _⟩ _
    exact delimits_close close
  · intro _ cs c rest ⟨behind, between, _⟩ _
    exact delimits_comma between
  · intro cs c rest
    constructor
    · rintro ⟨a, word, b, left, d, name, v, e, value, f, between, g, name', w, i, value', _, right,
        ⟨width, height, hv, hw, rfl⟩, rfl⟩
      exact ⟨.size word left name value between name' value' right hv hw, width, height, rfl⟩
    · rintro ⟨text, width, height, rfl⟩
      cases text with
      | size word left name value between name' value' right hv hw =>
          exact ⟨_, word, _, left, _, name, _, _, value, _, between, _, name', _, _, value', _,
            right, ⟨width, height, hv, hw, rfl⟩, rfl⟩

/-- The kinds of components are told by the first letter of their words. -/
theorem reads_component : ReadsFrom ['c', 'a', 'g', 's'] readComponent ComponentText Anything := by
  have kinds := reads_chart.orElse (reads_appearance.orElse (reads_grid.orElse reads_size
    (by simp)) (by simp)) (by simp)
  refine kinds.congr ?_
  intro cs c rest
  constructor
  · rintro (⟨text, -⟩ | ⟨text, -⟩ | ⟨text, -⟩ | ⟨text, -⟩) <;> exact text
  · intro text
    cases c with
    | chart part => exact .inl ⟨text, part, rfl⟩
    | appearance part => exact .inr (.inl ⟨text, part, rfl⟩)
    | grid columns => exact .inr (.inr (.inl ⟨text, columns, rfl⟩))
    | size width height => exact .inr (.inr (.inr ⟨text, width, height, rfl⟩))

end CorrelationPlot.Script
