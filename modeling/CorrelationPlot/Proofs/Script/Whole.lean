import CorrelationPlot.Proofs.Script.Components

/-!
The reader of scripts accepts exactly the grammar, and returns what a text denotes.
-/
namespace CorrelationPlot.Script
open Grammar Outcome

theorem keyword_bar : Keyword '|' bar (Word "|") := keyword_word (w := "|") rfl rfl

theorem ofComponents?_eq_some {components : List Component} {script : Script} :
    ofComponents? components = some script ↔ ScriptOf components script := by
  have chart := last_iff Component.chart Component.chart? (by
    intro c v
    cases c <;> simp [Component.chart?]) components
  have appearance := last_iff Component.appearance Component.appearance? (by
    intro c v
    cases c <;> simp [Component.appearance?]) components
  have columns := last_iff Component.grid Component.columns? (by
    intro c v
    cases c <;> simp [Component.columns?]) components
  have size := last_iff (fun s => Component.size s.1 s.2) Component.size? (by
    intro c ⟨w, h⟩
    cases c <;> simp [Component.size?]) components
  constructor
  · intro h
    obtain ⟨part, hpart, rfl⟩ := Option.map_eq_some_iff.mp h
    exact ⟨(chart _).mp hpart, (appearance _).mp rfl, (columns _).mp rfl, (size _).mp rfl⟩
  · intro ⟨hchart, happearance, hcolumns, hsize⟩
    simp only [ofComponents?, (chart _).mpr hchart, (appearance _).mpr happearance,
      (columns _).mpr hcolumns, (size _).mpr hsize, Option.map_some]

theorem reads_components :
    Reads (Reader.separated1 bar readComponent) (Separated (Word "|") ComponentText)
      (fun o => Anything o ∧ o ≠ some '|') :=
  Reads.separated1 keyword_bar reads_component.toReads trivial

theorem blanks_iff {cs : List Char} : Blanks cs ↔ skipBlank cs = [] := by
  constructor
  · intro h
    rw [← List.append_nil cs, skipBlank_append h]
    rfl
  · intro h
    obtain ⟨before, blanks, split⟩ := exists_blanks cs
    rwa [split, h, List.append_nil]

theorem scriptText_of_read {cs : List Char} {script : Script} (h : read cs = .ok (script, [])) :
    ScriptText cs script := by
  obtain ⟨⟨components, rest⟩, list, tail⟩ := bind_eq_ok.mp h
  refine ⟨components, rest, reads_components.sound list, ?_⟩
  dsimp only at tail
  split at tail
  · next blank =>
      split at tail
      · next script' found =>
          obtain ⟨rfl, -⟩ := Prod.mk.inj (Except.ok.inj tail)
          exact ⟨blanks_iff.mpr blank, ofComponents?_eq_some.mp found⟩
      · cases tail
  · cases tail

/-- A script that is read is the whole text. -/
theorem scriptText_of_ofText {text : String} {script : Script} (h : ofText text = .ok script) :
    ScriptText text.toList script := by
  obtain ⟨⟨script', rest⟩, found, rfl⟩ := map_eq_ok.mp h
  suffices ended : rest = [] from scriptText_of_read (ended ▸ found)
  obtain ⟨⟨components, behind⟩, -, tail⟩ := bind_eq_ok.mp found
  dsimp only at tail
  split at tail
  · split at tail <;> cases tail
    rfl
  · cases tail

theorem read_of_scriptText {cs : List Char} {script : Script} (h : ScriptText cs script) :
    read cs = .ok (script, []) := by
  obtain ⟨components, rest, list, blank, denoted⟩ := h
  have ended : ahead rest = none := by
    rw [ahead, blanks_iff.mp blank]
    rfl
  have fit : Anything (ahead rest) ∧ ahead rest ≠ some '|' := by simp [ended, Anything]
  obtain ⟨rest', found, same⟩ := reads_components.complete list fit rfl
  rw [blanks_iff.mp blank] at same
  refine bind_eq_ok.mpr ⟨_, found, ?_⟩
  simp only [same, ofComponents?_eq_some.mpr denoted]

/-- The grammar is unambiguous, although names and numbers can be cut short in it. -/
theorem ScriptText.unique {cs : List Char} {script script' : Script} (h : ScriptText cs script)
    (h' : ScriptText cs script') : script = script' := by
  have same := (read_of_scriptText h).symm.trans (read_of_scriptText h')
  exact (Prod.mk.inj (Except.ok.inj same)).1

/-- A script is read off a text exactly when the grammar has the text, with that script as what it
denotes. -/
theorem read_iff_scriptText (text : String) (script : Script) :
    read text.toList = .ok (script, []) ↔ ScriptText text.toList script :=
  ⟨scriptText_of_read, read_of_scriptText⟩

example : (read "correlation(x: \"a|b,\", y: c) | appearance ( )".toList).toOption.map (·.1.chart) =
    some ⟨"a|b,", "c", none⟩ := by
  decide

end CorrelationPlot.Script
