import CorrelationPlot.Cli.Options
import CorrelationPlot.Proofs.Outcome

/-!
The arguments as phrases: options with their values, flags and scripts. The options of an accepted
list of arguments come from its phrases alone, each from the phrases of its own kind, so two lists
that differ in phrases of one kind have the same options otherwise.
-/
namespace CorrelationPlot
open Outcome

namespace Cli

/-- One thing that the arguments say. -/
inductive Phrase where
  | option (key : Key) (value : String)
  | pretty
  | script (text : String)
  deriving DecidableEq, Repr

/-- What a list of arguments says, wherever the values stand. -/
def phrases : List String → List Phrase
  | [] => []
  | argument :: rest =>
    match classify argument with
    | .endOfOptions => rest.map .script
    | .pretty => .pretty :: phrases rest
    | .option key (some value) => .option key value :: phrases rest
    | .option key none =>
      match rest with
      | [] => []
      | value :: rest => .option key value :: phrases rest
    | .positional => .script argument :: phrases rest
    | .help | .faulty _ => []

/-- Lists that say the same but for phrases of one kind, which may be added, changed or left out. -/
def SameBut (kind : Phrase → Bool) (args args' : List String) : Prop :=
  (phrases args).filter (!kind ·) = (phrases args').filter (!kind ·)

instance (kind : Phrase → Bool) (args args' : List String) : Decidable (SameBut kind args args') :=
  inferInstanceAs (Decidable (_ = _))

namespace Phrase

/-- The option names the preview or its format. -/
def isPreview : Phrase → Bool
  | option .preview _ | option .previewFormat _ => true
  | _ => false

def isPretty (p : Phrase) : Bool := p = pretty

end Phrase

namespace Draft

/-- The draft with one more phrase. -/
def say (d : Draft) : Phrase → Draft
  | .option key value => { d with values := (key, value) :: d.values }
  | .pretty => { d with pretty := true }
  | .script text => { d with script := some text }

theorem set_eq_ok {d e : Draft} {key : Key} {value : String} (h : d.set key value = .ok e) :
    e = d.say (.option key value) := by
  rw [set] at h
  split at h
  · cases h
  · split at h
    · cases h
      rfl
    · cases h

theorem setPretty_eq_ok {d e : Draft} (h : d.setPretty = .ok e) : e = d.say .pretty := by
  rw [setPretty] at h
  split at h <;> cases h
  rfl

theorem setScript_eq_ok {d e : Draft} {text : String} (h : d.setScript text = .ok e) :
    e = d.say (.script text) := by
  rw [setScript] at h
  split at h <;> cases h
  rfl

end Draft

theorem readPositional_eq_ok {d e : Draft} {args : List String} (h : readPositional d args = .ok e) :
    e = (args.map Phrase.script).foldl Draft.say d := by
  induction args generalizing d with
  | nil =>
      cases h
      rfl
  | cons text rest ih =>
      obtain ⟨d', first, h⟩ := bind_eq_ok.mp h
      rw [ih h, Draft.setScript_eq_ok first]
      rfl

/-- A draft that was read has all phrases, in their order. -/
theorem readDraft_eq_ok {d e : Draft} {args : List String} (h : readDraft d args = .ok (some e)) :
    e = (phrases args).foldl Draft.say d := by
  fun_induction readDraft d args with
  | case1 =>
      cases h
      rfl
  | case2 d argument rest ended =>
      obtain ⟨d', read, same⟩ := map_eq_ok.mp h
      cases same
      rw [readPositional_eq_ok read, phrases, ended]
  | case3 | case6 | case8 | case10 => cases h
  | case4 d argument rest flag ih =>
      obtain ⟨d', first, h⟩ := bind_eq_ok.mp h
      rw [ih d' h, Draft.setPretty_eq_ok first, phrases, flag, List.foldl_cons]
  | case5 d argument rest key value attached ih =>
      obtain ⟨d', first, h⟩ := bind_eq_ok.mp h
      rw [ih d' h, Draft.set_eq_ok first, phrases, attached, List.foldl_cons]
  | case7 d argument key apart value rest proper ih =>
      obtain ⟨d', first, h⟩ := bind_eq_ok.mp h
      rw [ih d' h, Draft.set_eq_ok first, phrases, apart, List.foldl_cons]
  | case9 d argument rest plain ih =>
      obtain ⟨d', first, h⟩ := bind_eq_ok.mp h
      rw [ih d' h, Draft.setScript_eq_ok first, phrases, plain, List.foldl_cons]

namespace Draft

/-- The options of a draft that has a source. -/
def options (d : Draft) : Options where
  source := (d.script.map .script).getD (.settings ((d.value? .config).getD ""))
  input := d.value? .input
  format := if d.value? .format = some "csv" then .csv else .json
  groupBy := d.value? .groupBy
  pretty := d.pretty
  preview := d.value? .preview
  previewFormat := if d.value? .previewFormat = some "svg" then .svg else .png

theorem finish_eq_ok {d : Draft} {o : Options} (h : d.finish = .ok o) : o = d.options := by
  rw [finish] at h
  split at h <;> cases h
  · next script _ => simp only [options, script, Option.map_some, Option.getD_some]
  · next script config =>
    simp only [options, script, config, Option.map_none, Option.getD_none, Option.getD_some]

end Draft

theorem options_of_accepted {args : List String} {o : Options}
    (accepted : Request.ofArguments args = .ok (.run o)) :
    o = ((phrases args).foldl Draft.say {}).options := by
  obtain ⟨_ | d, read, rest⟩ := bind_eq_ok.mp accepted
  · cases rest
  · obtain ⟨o', finished, same⟩ := bind_eq_ok.mp rest
    cases same
    rw [Draft.finish_eq_ok finished, readDraft_eq_ok read]

section View
variable {α : Type} {view : Draft → α} {kind : Phrase → Bool}

/-- A view of the draft that phrases of one kind leave alone is made by the other phrases. -/
theorem view_foldl_say (others : ∀ d e p, view d = view e → view (d.say p) = view (e.say p))
    (unseen : ∀ d p, kind p = true → view (d.say p) = view d) (ps : List Phrase) {d e : Draft}
    (same : view d = view e) :
    view (ps.foldl Draft.say d) = view ((ps.filter (!kind ·)).foldl Draft.say e) := by
  induction ps generalizing d e with
  | nil => exact same
  | cons p ps ih =>
      cases hidden : kind p with
      | true =>
          rw [List.filter_cons_of_neg (by simp [hidden]), List.foldl_cons]
          exact ih ((unseen d p hidden).trans same)
      | false =>
          rw [List.filter_cons_of_pos (by simp [hidden]), List.foldl_cons, List.foldl_cons]
          exact ih (others d e p same)

theorem view_of_sameBut (others : ∀ d e p, view d = view e → view (d.say p) = view (e.say p))
    (unseen : ∀ d p, kind p = true → view (d.say p) = view d) {args args' : List String}
    (same : SameBut kind args args') :
    view ((phrases args).foldl Draft.say {}) = view ((phrases args').foldl Draft.say {}) := by
  rw [view_foldl_say others unseen (phrases args) rfl, same,
    ← view_foldl_say others unseen (phrases args') rfl]

end View

namespace Draft

/-- What a draft says about anything but the preview. -/
def besidePreview (d : Draft) :=
  (d.value? .config, d.value? .input, d.value? .format, d.value? .groupBy, d.pretty, d.script)

/-- What a draft says about anything but the look of the document. -/
def besidePretty (d : Draft) := (d.values, d.script)

theorem value?_say (d : Draft) (key key' : Key) (value : String) :
    (d.say (.option key' value)).value? key = if key = key' then some value else d.value? key := by
  rw [value?, say, List.lookup_cons]
  split <;> simp_all [value?]

theorem besidePreview_congr (d e : Draft) (p : Phrase) (h : d.besidePreview = e.besidePreview) :
    (d.say p).besidePreview = (e.say p).besidePreview := by
  simp only [besidePreview, Prod.mk.injEq] at h ⊢
  obtain ⟨config, input, format, groupBy, pretty, script⟩ := h
  cases p with
  | option key value =>
      simp only [value?_say, config, input, format, groupBy, true_and]
      exact ⟨pretty, script⟩
  | pretty => exact ⟨config, input, format, groupBy, rfl, script⟩
  | script text => exact ⟨config, input, format, groupBy, pretty, rfl⟩

theorem besidePreview_say (d : Draft) (p : Phrase) (h : p.isPreview = true) :
    (d.say p).besidePreview = d.besidePreview := by
  cases p with
  | option key value =>
      cases key with
      | preview | previewFormat =>
          simp only [besidePreview, value?_say, reduceCtorEq, if_false]
          rfl
      | _ => cases h
  | _ => cases h

theorem besidePretty_congr (d e : Draft) (p : Phrase) (h : d.besidePretty = e.besidePretty) :
    (d.say p).besidePretty = (e.say p).besidePretty := by
  obtain ⟨values, script⟩ := Prod.mk.inj h
  cases p <;> simp only [besidePretty, say, values, script]

theorem besidePretty_say (d : Draft) (p : Phrase) (h : p.isPretty = true) :
    (d.say p).besidePretty = d.besidePretty := by
  cases of_decide_eq_true h
  rfl

end Draft

section Options
variable {args args' : List String} {o o' : Options}
  (accepted : Request.ofArguments args = .ok (.run o))
  (accepted' : Request.ofArguments args' = .ok (.run o'))
include accepted accepted'

theorem options_beside_preview (same : SameBut Phrase.isPreview args args') :
    o' = { o with preview := o'.preview, previewFormat := o'.previewFormat } := by
  have view := view_of_sameBut Draft.besidePreview_congr Draft.besidePreview_say same
  simp only [Draft.besidePreview, Prod.mk.injEq] at view
  obtain ⟨config, input, format, groupBy, pretty, script⟩ := view
  rw [options_of_accepted accepted, options_of_accepted accepted']
  simp only [Draft.options, config, input, format, groupBy, pretty, script]

theorem options_beside_pretty (same : SameBut Phrase.isPretty args args') :
    o' = { o with pretty := o'.pretty } := by
  have view := view_of_sameBut Draft.besidePretty_congr Draft.besidePretty_say same
  obtain ⟨values, script⟩ := Prod.mk.inj view
  rw [options_of_accepted accepted, options_of_accepted accepted']
  simp only [Draft.options, Draft.value?, values, script]
  rfl

end Options
end Cli
end CorrelationPlot
