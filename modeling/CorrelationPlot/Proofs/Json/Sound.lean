import CorrelationPlot.Json.Codec
import CorrelationPlot.Proofs.Json.Text
import CorrelationPlot.Proofs.Outcome

/-!
Sound texts. A text that is JSON throughout holds nothing beside its value, so every reader finds in
it what it finds in the value.
-/
namespace CorrelationPlot.Json
open Outcome

namespace Written

mutual

/-- A sound value is written as its own text would be read. -/
theorem ofJson_of_toJson {depth : Nat} : (w : Written) → {j : Json} → w.toJson depth = .ok j →
    ofJson j = w
  | .null, _, h | .bool _, _, h | .number (some _), _, h | .string (.ok _), _, h => by
    cases h
    rfl
  | .number none, _, h | .string (.error _), _, h | .stopped _, _, h => by cases h
  | .array items stop, _, h => by
    cases depth with
    | zero => cases h
    | succ depth =>
        obtain ⟨js, hjs, rfl⟩ := map_eq_ok.mp h
        obtain ⟨same, rfl⟩ := ofItems_of_itemsToJson items hjs
        rw [ofJson, same]
  | .object members stop, _, h => by
    cases depth with
    | zero => cases h
    | succ depth =>
        obtain ⟨js, hjs, rfl⟩ := map_eq_ok.mp h
        obtain ⟨same, rfl⟩ := ofMembers_of_membersToJson members hjs
        rw [ofJson, same]

theorem ofItems_of_itemsToJson {depth : Nat} {stop : Option Stop} : (ws : List Written) →
    {js : List Json} → itemsToJson depth ws stop = .ok js → ofItems js = ws ∧ stop = none
  | [], _, h => by
    obtain ⟨_, closes, rfl⟩ := map_eq_ok.mp h
    cases stop with
    | none => exact ⟨rfl, rfl⟩
    | some s => cases closes
  | w :: ws, _, h => by
    obtain ⟨j, hj, h⟩ := bind_eq_ok.mp h
    obtain ⟨js, hjs, h⟩ := bind_eq_ok.mp h
    cases h
    obtain ⟨others, closed⟩ := ofItems_of_itemsToJson ws hjs
    exact ⟨by rw [ofItems, ofJson_of_toJson w hj, others], closed⟩

theorem ofMembers_of_membersToJson {depth : Nat} {stop : Option Stop} :
    (ms : List (Except Fault String × Written)) → {js : List (String × Json)} →
    membersToJson depth ms stop = .ok js → ofMembers js = ms ∧ stop = none
  | [], _, h => by
    obtain ⟨_, closes, rfl⟩ := map_eq_ok.mp h
    cases stop with
    | none => exact ⟨rfl, rfl⟩
    | some s => cases closes
  | (key, w) :: ms, _, h => by
    obtain ⟨k, rfl, rest⟩ := bind_eq_ok.mp h
    obtain ⟨j, hj, rest⟩ := bind_eq_ok.mp rest
    obtain ⟨js, hjs, rest⟩ := bind_eq_ok.mp rest
    cases rest
    obtain ⟨others, closed⟩ := ofMembers_of_membersToJson ms hjs
    exact ⟨by rw [ofMembers, ofJson_of_toJson w hj, others], closed⟩

end

end Written

theorem toJson_of_parse {text : String} {j : Json} (h : parse text = .ok j) :
    (Document.ofText text).value.toJson maxDepth = .ok j ∧
      (Document.ofText text).trailing = false := by
  obtain ⟨i, value, ended⟩ := bind_eq_ok.mp h
  split at ended
  · cases ended
  · next closed =>
    cases ended
    exact ⟨value, Bool.eq_false_iff.mpr closed⟩

theorem document_of_parse {text : String} {j : Json} (h : parse text = .ok j) :
    Document.ofText text = ⟨Written.ofJson j, false⟩ := by
  obtain ⟨value, closed⟩ := toJson_of_parse h
  rw [Written.ofJson_of_toJson _ value, ← closed]

namespace Codec
variable {α : Type} {text : String} {j : Json} {a : α}

theorem ofText_of_parse (h : parse text = .ok j) (c : Codec α) :
    c.ofText text = .ok a ↔ c.ofJson? j = some a := by
  rw [ofText, document_of_parse h, read_sound, ofJson?]
  cases c.decode maxDepth (Written.ofJson j) <;> simp [Except.toOption]

/-- What is read as JSON first is read by its value alone. -/
theorem ofText_buffered (h : parse text = .ok j) (encode : α → Json)
    (decode? : Json → Option α) :
    (buffered encode decode?).ofText text = .ok a ↔ decode? j = some a := by
  have value := (toJson_of_parse h).1
  rw [document_of_parse h] at value
  rw [ofText, document_of_parse h, read_sound]
  simp only [buffered, bind_eq_ok, value, Except.ok.injEq, exists_eq_left']
  cases decode? j <;> simp

end Codec
end CorrelationPlot.Json
