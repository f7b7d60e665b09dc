import CorrelationPlot.Json.Codec
import CorrelationPlot.Proofs.Json.Sorted
import CorrelationPlot.Proofs.Outcome

/-!
Reading records. Every value of a record that was read comes from the member of its name, or from
the item in its place, or it is what a missing member stands for; other members have no influence.
-/
namespace CorrelationPlot.Json
open Outcome

/-- What a value holds for the field of a record: in an object the member of that name, and in an
array the item in that place. -/
def field? (place : Nat) (name : String) : Json → Option Json
  | .object ms => member? name ms
  | .array items => items[place]?
  | _ => none

namespace Written

/-- The value of a member whose key could be read; of several with one key the last counts. -/
def member? (name : String) : List (Except Fault String × Written) → Option Written
  | [] => none
  | (.ok k, w) :: ms => (member? name ms).or (if k = name then some w else none)
  | (.error _, _) :: ms => member? name ms

/-- What a written value holds for the field of a record. -/
def field? (place : Nat) (name : String) : Written → Option Written
  | .object ms _ => member? name ms
  | .array items _ => items[place]?
  | _ => none

theorem getElem?_ofItems (items : List Json) (place : Nat) :
    (ofItems items)[place]? = items[place]?.map ofJson := by
  induction items generalizing place with
  | nil => rfl
  | cons j items ih =>
      cases place with
      | zero => rfl
      | succ place => exact ih place

theorem member?_ofMembers (name : String) (ms : List (String × Json)) :
    member? name (ofMembers ms) = (Json.member? name ms).map ofJson := by
  induction ms with
  | nil => rfl
  | cons m ms ih =>
      simp only [ofMembers, member?, Json.member?]
      rw [ih]
      cases Json.member? name ms with
      | some j => rfl
      | none => split <;> rfl

theorem field?_ofJson (j : Json) (place : Nat) (name : String) :
    (ofJson j).field? place name = (j.field? place name).map ofJson := by
  cases j with
  | array items => exact getElem?_ofItems items place
  | object ms => exact member?_ofMembers name ms
  | null | bool b | number n | string s => rfl

end Written

namespace Draft

/-- How values have been put into the fields for which `find` has one. The other fields are as they
were. -/
def Filled (depth : Nat) (find : String → Option Written) :
    (fs : List Field) → Draft fs → Draft fs → Prop
  | [], _, _ => True
  | f :: fs, (slot, draft), (slot', draft') =>
    (∀ w, find f.name = some w → ∃ a, f.codec.decode depth w = .ok a ∧ slot' = some a) ∧
    (find f.name = none → slot' = slot) ∧ Filled depth find fs draft draft'

theorem filled_refl (depth : Nat) (find : String → Option Written) {fs : List Field}
    (h : ∀ f ∈ fs, find f.name = none) (draft : Draft fs) : Filled depth find fs draft draft := by
  induction fs with
  | nil => trivial
  | cons f fs ih =>
      obtain ⟨slot, draft⟩ := draft
      refine ⟨fun w hw => ?_, fun _ => rfl, ih (fun g hg => h g (List.mem_cons_of_mem _ hg)) draft⟩
      rw [h f List.mem_cons_self] at hw
      cases hw

theorem filled_trans {depth : Nat} {find find' : String → Option Written} {fs : List Field}
    {d d' d'' : Draft fs} (first : Filled depth find fs d d')
    (second : Filled depth find' fs d' d'') :
    Filled depth (fun n => (find' n).or (find n)) fs d d'' := by
  induction fs with
  | nil => trivial
  | cons f fs ih =>
      obtain ⟨slot, d⟩ := d
      obtain ⟨slot', d'⟩ := d'
      obtain ⟨slot'', d''⟩ := d''
      obtain ⟨put, kept, first⟩ := first
      obtain ⟨put', kept', second⟩ := second
      refine ⟨fun w hw => ?_, fun none => ?_, ih first second⟩
      · rcases Option.or_eq_some_iff.mp hw with later | ⟨not, earlier⟩
        · exact put' w later
        · obtain rfl := kept' not
          exact put w earlier
      · obtain ⟨not, notEarlier⟩ := Option.or_eq_none_iff.mp none
        rw [kept' not, kept notEarlier]

theorem filled_put {depth : Nat} {key : String} {w : Written} {fs : List Field}
    (distinct : (fs.map Field.name).Nodup) {d d' : Draft fs}
    (h : put depth key w fs d = .ok d') :
    Filled depth (fun n => if key = n then some w else none) fs d d' := by
  induction fs with
  | nil => trivial
  | cons f fs ih =>
      obtain ⟨slot, d⟩ := d
      obtain ⟨notLater, distinct⟩ := List.nodup_cons.mp distinct
      simp only [put] at h
      split at h
      · next same =>
        split at h
        · cases h
        · obtain ⟨a, ha, rfl⟩ := map_eq_ok.mp h
          refine ⟨fun w hw => ?_, fun none => ?_, filled_refl _ _ ?_ _⟩
          · cases (if_pos same).symm.trans hw
            exact ⟨a, ha, rfl⟩
          · cases (if_pos same).symm.trans none
          intro g hg
          rw [if_neg]
          rintro rfl
          exact notLater (same ▸ List.mem_map_of_mem hg)
      · next other =>
        obtain ⟨rest, hrest, rfl⟩ := map_eq_ok.mp h
        refine ⟨fun w hw => ?_, fun _ => rfl, ih distinct hrest⟩
        cases (if_neg other).symm.trans hw

theorem filled_putAll {depth : Nat} {fs : List Field} (distinct : (fs.map Field.name).Nodup)
    {stop : Option Stop} {ms : List (Except Fault String × Written)} {d d' : Draft fs}
    (h : putAll depth fs stop ms d = .ok d') :
    Filled depth (fun n => Written.member? n ms) fs d d' := by
  induction ms generalizing d with
  | nil =>
      obtain ⟨-, -, rfl⟩ := map_eq_ok.mp h
      exact filled_refl _ _ (fun _ _ => rfl) d
  | cons m ms ih =>
      obtain ⟨key, w⟩ := m
      cases key with
      | error f => cases h
      | ok name =>
          obtain ⟨_, hkey, h⟩ := bind_eq_ok.mp h
          cases hkey
          obtain ⟨between, hput, h⟩ := bind_eq_ok.mp h
          exact filled_trans (filled_put distinct hput) (ih h)

end Draft

namespace Record

/-- The values of a record come from what `find` has for the place and the name of their fields. -/
def Found (depth : Nat) : (Nat → String → Option Written) → (fs : List Field) → Values fs → Prop
  | _, [], _ => True
  | find, f :: fs, (a, rest) =>
    (∀ w, find 0 f.name = some w → f.codec.decode depth w = .ok a) ∧
    (find 0 f.name = none → f.absent = some a) ∧ Found depth (fun place => find (place + 1)) fs rest

theorem found_of_finish {depth : Nat} {find : String → Option Written} {fs : List Field}
    {d : Draft fs} {vs : Values fs} (filled : Draft.Filled depth find fs (Draft.empty fs) d)
    (h : d.finish? = some vs) : Found depth (fun _ name => find name) fs vs := by
  induction fs with
  | nil => trivial
  | cons f fs ih =>
      obtain ⟨slot, d⟩ := d
      rw [Draft.finish?] at h
      split at h
      · next a rest ha hrest =>
        cases h
        obtain ⟨put, kept, filled⟩ := filled
        refine ⟨fun w hw => ?_, fun none => ?_, ih filled hrest⟩
        · obtain ⟨b, hb, rfl⟩ := put w hw
          cases ha
          exact hb
        · obtain rfl := kept none
          exact ha
      · cases h

theorem found_of_items {depth : Nat} {fs : List Field} {stop : Option Stop} {items : List Written}
    {vs : Values fs} (h : decodeItems depth stop fs items = .ok vs) :
    Found depth (fun place _ => items[place]?) fs vs := by
  induction fs generalizing items with
  | nil => trivial
  | cons f fs ih =>
      cases items with
      | nil =>
          simp only [decodeItems] at h
          split at h
          · cases h
          · next a ha =>
            obtain ⟨rest, hrest, rfl⟩ := map_eq_ok.mp h
            exact ⟨nofun, fun _ => ha, ih hrest⟩
          · cases h
      | cons w items =>
          obtain ⟨a, ha, h⟩ := bind_eq_ok.mp h
          obtain ⟨rest, hrest, h⟩ := bind_eq_ok.mp h
          cases h
          refine ⟨fun w' hw => ?_, nofun, ih hrest⟩
          cases hw
          exact ha

/-- A record that was read from an object or from an array. -/
theorem found_of_decode {depth : Nat} {fs : List Field} (distinct : (fs.map Field.name).Nodup)
    {w : Written} {vs : Values fs} (h : (values fs).decode depth w = .ok vs) :
    ∃ below, depth = below + 1 ∧ Found below (fun place name => w.field? place name) fs vs := by
  cases w with
  | array items stop =>
      cases depth with
      | zero => cases h
      | succ below => exact ⟨below, rfl, found_of_items h⟩
  | object ms stop =>
      cases depth with
      | zero => cases h
      | succ below =>
          obtain ⟨d, hd, h⟩ := bind_eq_ok.mp h
          split at h
          · next hvs =>
            cases h
            exact ⟨below, rfl, found_of_finish (Draft.filled_putAll distinct hd) hvs⟩
          · cases h
  | null | bool b | number n | string s | stopped s => cases depth <;> cases h

/-- A field that must not be missing has its value in a place of its own. -/
theorem Found.required {depth : Nat} {find : Nat → String → Option Written} {fs : List Field}
    {vs : Values fs} (found : Found depth find fs vs) (place : Nat) {f : Field}
    (hf : fs[place]? = some f) (needed : f.absent = none) :
    ∃ w a, find place f.name = some w ∧ f.codec.decode depth w = .ok a := by
  induction fs generalizing find place with
  | nil => cases hf
  | cons g fs ih =>
      obtain ⟨a, rest⟩ := vs
      obtain ⟨given, missing, found⟩ := found
      cases place with
      | zero =>
          cases hf
          cases here : find 0 f.name with
          | none => cases needed.symm.trans (missing here)
          | some w => exact ⟨w, a, rfl, given w here⟩
      | succ place => exact ih found place hf

/-- A value that must not be missing was read from something. -/
theorem decoded_of_found {α : Type} {c : Codec α} {depth : Nat} {o : Option Written} {a : α}
    (given : ∀ w, o = some w → c.decode depth w = .ok a)
    (missing : o = none → (none : Option α) = some a) : ∃ w, c.decode depth w = .ok a := by
  cases o with
  | none => cases missing rfl
  | some w => exact ⟨w, given w rfl⟩

end Record

theorem Codec.written_of_string {depth : Nat} {w : Written} {s : String}
    (h : string.decode depth w = .ok s) : w = .string (.ok s) := by
  cases w with
  | string text =>
      obtain rfl : text = .ok s := h
      rfl
  | _ => cases h

theorem Codec.written_of_word {α : Type} {name : String} {a b : α} {depth : Nat} {w : Written}
    (h : (word name a).decode depth w = .ok b) :
    w = .string (.ok name) ∨ w = .object [(.ok name, .null)] none := by
  simp only [word] at h
  split at h
  · split at h
    · next same => exact .inl (same ▸ rfl)
    · cases h
  · split at h
    · next same => exact .inr (same ▸ rfl)
    · cases h
  · cases h

/-- What is read as a word is that word alone. -/
theorem Codec.word_unique {α β : Type} {name name' : String} {a a' : α} {b b' : β}
    {depth depth' : Nat} {w : Written} (h : (word name a).decode depth w = .ok a')
    (h' : (word name' b).decode depth' w = .ok b') : name = name' := by
  rcases written_of_word h with rfl | rfl <;> rcases written_of_word h' with same | same <;>
    cases same <;> rfl

theorem Codec.lt_of_natBelow {bound depth : Nat} {w : Written} {n : Nat}
    (h : (natBelow bound).decode depth w = .ok n) : n < bound := by
  simp only [natBelow] at h
  split at h
  · split at h
    · next i _ fits =>
      cases h
      exact fits.2
    · cases h
  · cases h

theorem Codec.mem_decodeItems {α : Type} {c : Codec α} {depth : Nat} {ws : List Written}
    {stop : Option Stop} {as : List α} (h : decodeItems c depth ws stop = .ok as) {a : α}
    (ha : a ∈ as) : ∃ w ∈ ws, c.decode depth w = .ok a := by
  induction ws generalizing as with
  | nil =>
      obtain ⟨-, -, rfl⟩ := map_eq_ok.mp h
      cases ha
  | cons w ws ih =>
      obtain ⟨b, hb, h⟩ := bind_eq_ok.mp h
      obtain ⟨bs, hbs, h⟩ := bind_eq_ok.mp h
      cases h
      rcases List.mem_cons.mp ha with rfl | ha
      · exact ⟨w, List.mem_cons_self, hb⟩
      · obtain ⟨v, hv, read⟩ := ih hbs ha
        exact ⟨v, List.mem_cons_of_mem _ hv, read⟩

/-- What a list that was read holds was read itself. -/
theorem Codec.decoded_of_mem {α : Type} {c : Codec α} {depth : Nat} {w : Written} {as : List α}
    (h : (list c).decode depth w = .ok as) {a : α} (ha : a ∈ as) :
    ∃ below v, c.decode below v = .ok a := by
  cases w with
  | array items stop =>
      cases depth with
      | zero => cases h
      | succ below =>
          obtain ⟨v, -, read⟩ := mem_decodeItems h ha
          exact ⟨below, v, read⟩
  | null | bool b | number n | string s | object ms stop | stopped s => cases depth <;> cases h

theorem Codec.ofJson?_eq_some {α : Type} {c : Codec α} {j : Json} {a : α}
    (h : c.ofJson? j = some a) : c.decode maxDepth (Written.ofJson j) = .ok a := by
  rw [ofJson?] at h
  cases hd : c.decode maxDepth (Written.ofJson j) with
  | ok b =>
      rw [hd] at h
      cases h
      rfl
  | error f =>
      rw [hd] at h
      cases h

end CorrelationPlot.Json
