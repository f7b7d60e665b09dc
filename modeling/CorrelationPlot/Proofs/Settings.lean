import CorrelationPlot.Proofs.Json.Record
import CorrelationPlot.Proofs.Json.Restore
import CorrelationPlot.Settings

/-!
Stored settings. Settings that were read from a text or made from a script are given back by the
text that they are written to. The name of a display is kept as it stands, whatever it is, because
no settings that come about in these ways keep a known name as an unknown one.
-/
namespace CorrelationPlot
open Json Outcome

variable {A : Arrangement}

theorem Traits.restores (t : Traits) : Traits.codec.Restores A t :=
  Record.restores_codec (by decide)
    ⟨Codec.restores_bool _, Codec.restores_bool _,
      Codec.restores_list fun s _ => Codec.restores_string s, trivial⟩ rfl

theorem Selector.restores (f : Selector) : Selector.codec.Restores A f :=
  Record.restores_codec (by decide)
    ⟨Codec.restores_string _, Codec.restores_string _, f.traits.restores, trivial⟩ rfl

theorem Appearance.restores (a : Appearance) : Appearance.codec.Restores A a :=
  Record.restores_codec (by decide)
    ⟨Codec.restores_string _, Codec.restores_string _, trivial⟩ rfl

theorem Display.restores {d : Display} (known : ofName d.name = d) : Display.codec.Restores A d :=
  Codec.restores_imap (Codec.restores_string _) known

theorem View.restores {v : View} (known : Display.ofName v.display.name = v.display) :
    View.codec.Restores A v := by
  have field (f : Option Selector) : (Codec.option Selector.codec).Restores A f :=
    Codec.restores_option (Codec.refusesNull_values _ |>.imap _ _) fun f _ => f.restores
  exact Record.restores_codec (by decide) ⟨field _, field _, Display.restores known, trivial⟩ rfl

namespace Settings

theorem restores {s : Settings} (known : Display.ofName s.view.display.name = s.view.display) :
    codec.Restores A s := by
  refine Record.restores_codec (by decide) ⟨View.restores known, s.appearance.restores,
    Codec.restores_word64 _, Record.fits_omitted _ ?_ ?_, trivial⟩ rfl
  · exact Codec.refusesNull_pair _ _
  · exact fun size _ => Codec.restores_pair (Codec.restores_word32 _) (Codec.restores_word32 _)

theorem nesting_codec (s : Settings) : (codec.encode s).nesting ≤ maxDepth := by
  have traits : Traits.codec.Within 2 := Codec.within_record
    (by simp [Field.withDefault, Codec.within_bool, (Codec.within_string 0).list]) _ _
  have selector : Selector.codec.Within 3 := Codec.within_record
    (by simp [Field.required, Field.withDefault, Codec.within_string, traits]) _ _
  have view : View.codec.Within 4 := Codec.within_record
    (by simp [Field.withDefault, selector.option, Display.codec, (Codec.within_string _).imap]) _ _
  have appearance : Appearance.codec.Within 4 := Codec.within_record
    (by simp [Field.withDefault, Codec.within_string]) _ _
  have size : (Codec.pair Codec.word32 Codec.word32).Within 4 :=
    (Codec.within_word32 3).pair (Codec.within_word32 3)
  have settings : codec.Within 5 := Codec.within_record
    (by simp [Field.withDefault, Field.omitted, view, appearance, Codec.within_word64,
      size.option]) _ _
  exact (settings s).trans (by decide)

/-- What a text gives for the display, if anything. -/
def writtenDisplay (text : String) : Option Written :=
  ((Document.ofText text).value.field? 0 "visualizationConfig").bind (·.field? 2 "displayType")

theorem writtenDisplay_text (s : Settings) :
    writtenDisplay (codec.text s) = some (.string (.ok s.view.display.name)) := by
  rw [writtenDisplay, Codec.text, ofText_compactText]
  simp only [Written.field?_ofJson]
  have view :
      (codec.encode s).field? 0 "visualizationConfig" = some (View.codec.encode s.view) := by
    obtain ⟨view, appearance, columns, size⟩ := s
    cases size <;> rfl
  rw [view]
  rfl

/-- The display of settings that were read is the one that the text gives. -/
theorem display_ofText {text : String} {s : Settings} (h : ofText text = .ok s) :
    ∃ name, s.view.display = .ofName name ∧
      (writtenDisplay text).getD (.string (.ok "Scatter")) = .string (.ok name) := by
  obtain ⟨⟨view, appearance, columns, size, _⟩, values, rfl⟩ :=
    map_eq_ok.mp (Codec.decode_of_ofText h)
  obtain ⟨below, -, given, absent, -⟩ := Record.found_of_decode (by decide) values
  rw [writtenDisplay]
  cases hview : (Document.ofText text).value.field? 0 "visualizationConfig" with
  | none =>
      cases absent hview
      exact ⟨"Scatter", rfl, rfl⟩
  | some w =>
      obtain ⟨⟨x, y, display, _⟩, inner, rfl⟩ := map_eq_ok.mp (given w hview)
      obtain ⟨below, -, -, -, -, -, given, absent, -⟩ := Record.found_of_decode (by decide) inner
      rw [Option.bind_some]
      cases hdisplay : w.field? 2 "displayType" with
      | none =>
          cases absent hdisplay
          exact ⟨"Scatter", rfl, rfl⟩
      | some w =>
          obtain ⟨name, hname, rfl⟩ := map_eq_ok.mp (given w hdisplay)
          refine ⟨name, rfl, ?_⟩
          cases w with
          | string s => exact congrArg Written.string hname
          | _ => cases hname

theorem display_ofScript {script : Script} {offer : Offer} {s : Settings}
    (h : ofScript script offer = .ok s) :
    s.view.display = .ofName (script.chart.display.getD "Scatter") := by
  obtain ⟨x, -, h⟩ := bind_eq_ok.mp h
  obtain ⟨y, -, h⟩ := bind_eq_ok.mp h
  cases h
  cases script.chart.display <;> rfl

theorem name_ofName (name : String) : (Display.ofName name).name = name := by
  rw [Display.ofName]
  split
  · next h => exact h.symm
  · split
    · next h => exact h.symm
    · rfl

/-- Settings that were read or made from a script come back from the text they are written to. The
display has the name in this text that it was read from. -/
theorem text_restores_settings {s : Settings}
    (made : (∃ text, ofText text = .ok s) ∨ ∃ script offer, ofScript script offer = .ok s) :
    ofText (codec.text s) = .ok s ∧ ofText (codec.indented s) = .ok s ∧
      (ofText (codec.text s)).map codec.text = .ok (codec.text s) ∧
      (∀ text, ofText text = .ok s →
        writtenDisplay (codec.text s) =
          some ((writtenDisplay text).getD (.string (.ok "Scatter")))) ∧
      ∀ script offer, ofScript script offer = .ok s →
        writtenDisplay (codec.text s) =
          some (.string (.ok (script.chart.display.getD "Scatter"))) := by
  obtain ⟨name, hname⟩ : ∃ name, s.view.display = .ofName name := by
    rcases made with ⟨text, h⟩ | ⟨script, offer, h⟩
    · obtain ⟨name, display, -⟩ := display_ofText h
      exact ⟨name, display⟩
    · exact ⟨_, display_ofScript h⟩
  have restored : codec.Restores .asWritten s := restores (by rw [hname, name_ofName])
  have back : ofText (codec.text s) = .ok s := Codec.ofText_text (nesting_codec s) restored
  refine ⟨back, Codec.ofText_indented (nesting_codec s) restored, by rw [back]; rfl, ?_, ?_⟩
  · intro text h
    obtain ⟨name, display, written⟩ := display_ofText h
    rw [writtenDisplay_text, written, display, name_ofName]
  · intro script offer h
    rw [writtenDisplay_text, display_ofScript h, name_ofName]

/-- A display of an unknown name, in which a character is escaped. -/
def heatmap : String :=
  "\x7b\"visualizationConfig\":\x7b\"displayType\":\"heat\\u0022map\"\x7d\x7d"

def heatmapSettings : Settings := { view := { display := .other "heat\"map" } }

theorem ofText_heatmap : ofText heatmap = .ok heatmapSettings := by
  cbv

theorem writtenDisplay_heatmap :
    writtenDisplay heatmap = some (.string (.ok "heat\"map")) := by
  cbv

theorem heatmap_restored : ofText heatmap = .ok heatmapSettings ∧
    ofText (codec.text heatmapSettings) = .ok heatmapSettings ∧
    ofText (codec.indented heatmapSettings) = .ok heatmapSettings ∧
    writtenDisplay (codec.text heatmapSettings) = some (.string (.ok "heat\"map")) := by
  obtain ⟨compact, indented, -, display, -⟩ :=
    text_restores_settings (.inl ⟨heatmap, ofText_heatmap⟩)
  have kept := display heatmap ofText_heatmap
  rw [writtenDisplay_heatmap] at kept
  exact ⟨ofText_heatmap, compact, indented, kept⟩

end Settings
end CorrelationPlot
