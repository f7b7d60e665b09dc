import CorrelationPlot.Json.Codec
import CorrelationPlot.Proofs.Json.Sorted
import CorrelationPlot.Proofs.Json.Text
import CorrelationPlot.Proofs.Outcome

/-!
Codecs that restore what they write. A record is restored when its values are, in whatever order its
members come, so the same lemmas serve a text that is read as it stands and one whose objects are
sorted first.
-/
namespace CorrelationPlot.Json
open Outcome

/-- A change of a value that moves members of objects and nothing else. -/
structure Arrangement where
  arrange : Json → Json
  scalar : ∀ j, j.nesting = 0 → arrange j = j
  array : ∀ items, arrange (.array items) = .array (items.map arrange)
  object : ∀ ms, (ms.map Prod.fst).Nodup → ∃ ms', arrange (.object ms) = .object ms' ∧
    ms'.Perm (ms.map fun m => (m.1, arrange m.2))

namespace Arrangement

def asWritten : Arrangement where
  arrange := id
  scalar _ _ := rfl
  array items := by rw [List.map_id, id]
  object ms _ := ⟨ms, rfl, by simp⟩

def byName : Arrangement where
  arrange := sorted
  scalar j h := by cases j <;> first | rfl | cases h
  array items := by rw [sorted, sortedItems_eq_map]
  object ms distinct := by
    refine ⟨_, rfl, ?_⟩
    rw [← sortedMembers_eq_map]
    apply perm_sortMembers
    rwa [sortedMembers_eq_map, List.map_map]

end Arrangement

theorem nesting_le_of_item {items : List Json} {j : Json} (h : j ∈ items) :
    j.nesting ≤ nestingItems items := by
  induction items with
  | nil => cases h
  | cons i items ih =>
      rcases List.mem_cons.mp h with rfl | h
      · exact Nat.le_max_left _ _
      · exact (ih h).trans (Nat.le_max_right _ _)

theorem nesting_le_of_member {ms : List (String × Json)} {m : String × Json} (h : m ∈ ms) :
    m.2.nesting ≤ nestingMembers ms := by
  induction ms with
  | nil => cases h
  | cons n ms ih =>
      rcases List.mem_cons.mp h with rfl | h
      · exact Nat.le_max_left _ _
      · exact (ih h).trans (Nat.le_max_right _ _)

theorem nestingItems_le {items : List Json} {n : Nat} (h : ∀ j ∈ items, j.nesting ≤ n) :
    nestingItems items ≤ n := by
  induction items with
  | nil => exact Nat.zero_le n
  | cons j items ih =>
      exact Nat.max_le.mpr ⟨h j List.mem_cons_self, ih fun i hi => h i (List.mem_cons_of_mem _ hi)⟩

theorem nestingMembers_le {ms : List (String × Json)} {n : Nat} (h : ∀ m ∈ ms, m.2.nesting ≤ n) :
    nestingMembers ms ≤ n := by
  induction ms with
  | nil => exact Nat.zero_le n
  | cons m ms ih =>
      exact Nat.max_le.mpr ⟨h m List.mem_cons_self, ih fun i hi => h i (List.mem_cons_of_mem _ hi)⟩

variable {α β : Type}

/-- At most `n` containers are open anywhere in what is written. -/
def Codec.Within (c : Codec α) (n : Nat) : Prop := ∀ a, (c.encode a).nesting ≤ n

namespace Codec

theorem nesting_ofInt (i : Int) : (ofInt i).nesting = 0 := by
  rw [ofInt]
  cases Number.ofInt? i <;> rfl

theorem nesting_ofFloat (x : Float) : (ofFloat x).nesting = 0 := by
  rw [ofFloat]
  cases Number.ofFloat? x <;> rfl

theorem within_string (n : Nat) : string.Within n := fun _ => Nat.zero_le n

theorem within_bool (n : Nat) : bool.Within n := fun _ => Nat.zero_le n

theorem within_word (name : String) (a : α) (n : Nat) : (word name a).Within n :=
  fun _ => Nat.zero_le n

theorem within_natBelow (bound n : Nat) : (natBelow bound).Within n := by
  intro i
  simp only [natBelow, Json.ofNat, nesting_ofInt, Nat.zero_le]

theorem within_float (n : Nat) : float.Within n := by
  intro x
  simp only [float, nesting_ofFloat, Nat.zero_le]

variable {c : Codec α} {n : Nat}

theorem Within.imap (h : c.Within n) (f : α → β) (g : β → α) : (c.imap f g).Within n :=
  fun b => h (g b)

theorem within_count (n : Nat) : count.Within n := within_natBelow _ n

theorem within_word32 (n : Nat) : word32.Within n := (within_natBelow _ n).imap _ _

theorem within_word64 (n : Nat) : word64.Within n := (within_count n).imap _ _

theorem Within.option (h : c.Within n) : c.option.Within n := by
  intro a
  cases a with
  | none => exact Nat.zero_le n
  | some a => exact h a

theorem Within.list (h : c.Within n) : (list c).Within (n + 1) := by
  intro as
  apply Nat.succ_le_succ
  apply nestingItems_le
  intro j hj
  obtain ⟨a, -, rfl⟩ := List.mem_map.mp hj
  exact h a

theorem Within.pair {c' : Codec β} (h : c.Within n) (h' : c'.Within n) :
    (pair c c').Within (n + 1) := by
  intro p
  apply Nat.succ_le_succ
  apply nestingItems_le
  simpa using ⟨h p.1, h' p.2⟩

theorem nesting_member {fs : List Field} (h : ∀ f ∈ fs, f.codec.Within n) (vs : Values fs) :
    ∀ m ∈ Record.members fs vs, m.2.nesting ≤ n := by
  induction fs with
  | nil => nofun
  | cons f fs ih =>
      obtain ⟨a, rest⟩ := vs
      have others := ih (fun g hg => h g (List.mem_cons_of_mem _ hg)) rest
      rw [Record.members]
      split
      · exact others
      · exact List.forall_mem_cons.mpr ⟨h f List.mem_cons_self a, others⟩

theorem within_record {fs : List Field} (h : ∀ f ∈ fs, f.codec.Within n)
    (toValues : α → Values fs) (ofValues : Values fs → α) :
    (Record.codec fs toValues ofValues).Within (n + 1) :=
  fun a => Nat.succ_le_succ (nestingMembers_le (nesting_member h (toValues a)))

end Codec

variable (A : Arrangement)

/-- What is written for `a` reads as `a`, with its objects arranged and wherever the depth allows
for it. -/
def Codec.Restores (c : Codec α) (a : α) : Prop :=
  ∀ depth, (c.encode a).nesting ≤ depth →
    c.decode depth (Written.ofJson (A.arrange (c.encode a))) = .ok a

namespace Codec

variable {A}

theorem restores_string (s : String) : string.Restores A s := by
  intro depth _
  rw [string, A.scalar _ rfl]
  rfl

theorem restores_bool (b : Bool) : bool.Restores A b := by
  intro depth _
  rw [bool, A.scalar _ rfl]
  rfl

theorem ofNat_of_lt {n : Nat} (h : n < UInt64.size) :
    ∃ inRange, Json.ofNat n = .number (.int n inRange) := by
  have inRange : -0x8000000000000000 ≤ (n : Int) ∧ (n : Int) < UInt64.size := by omega
  refine ⟨inRange, ?_⟩
  rw [Json.ofNat, ofInt, Number.ofInt?, dif_pos inRange]
  rfl

theorem restores_natBelow {bound n : Nat} (fits : bound ≤ UInt64.size) (h : n < bound) :
    (natBelow bound).Restores A n := by
  intro depth _
  obtain ⟨inRange, number⟩ := ofNat_of_lt (h.trans_le fits)
  have below : (0 : Int) ≤ n ∧ (n : Int).toNat < bound := ⟨by omega, by omega⟩
  simp only [natBelow, number]
  rw [A.scalar _ rfl]
  exact if_pos below

theorem restores_count {n : Nat} (h : n < UInt64.size) : count.Restores A n :=
  restores_natBelow le_rfl h

theorem restores_imap {c : Codec α} {f : α → β} {g : β → α} {b : β} (h : c.Restores A (g b))
    (back : f (g b) = b) : (c.imap f g).Restores A b := by
  intro depth deep
  exact map_eq_ok.mpr ⟨_, h depth deep, back⟩

theorem restores_word32 (n : UInt32) : word32.Restores A n :=
  restores_imap (restores_natBelow (by decide) n.toNat_lt) UInt32.ofNat_toNat

theorem restores_word64 (n : UInt64) : word64.Restores A n :=
  restores_imap (restores_count n.toNat_lt) UInt64.ofNat_toNat

theorem restores_float {x : Float} (finite : Binary64.isFinite x) : float.Restores A x := by
  intro depth _
  have number : ofFloat x = .number (.float x finite) := by
    rw [ofFloat, Number.ofFloat?, dif_pos finite]
    rfl
  simp only [float, number]
  rw [A.scalar _ rfl]
  rfl

theorem restores_word (name : String) (a : α) : (word name a).Restores A a := by
  intro depth _
  simp only [word]
  rw [A.scalar _ rfl]
  exact if_pos rfl

/-- Nothing reads as an absent value by itself. -/
def RefusesNull (c : Codec α) : Prop := ∀ depth a, c.decode depth .null ≠ .ok a

theorem refusesNull_natBelow (bound : Nat) : (natBelow bound).RefusesNull := nofun

theorem RefusesNull.imap {c : Codec α} (h : c.RefusesNull) (f : α → β) (g : β → α) :
    (c.imap f g).RefusesNull := by
  intro depth b read
  obtain ⟨a, ha, -⟩ := map_eq_ok.mp read
  exact h depth a ha

theorem refusesNull_values (fs : List Field) : (Record.values fs).RefusesNull := by
  intro depth a read
  cases depth <;> cases read

theorem refusesNull_pair (c : Codec α) (c' : Codec β) : (pair c c').RefusesNull := by
  intro depth a read
  cases depth <;> cases read

theorem restores_option {c : Codec α} (refuses : c.RefusesNull) {a : Option α}
    (h : ∀ b, a = some b → c.Restores A b) : c.option.Restores A a := by
  intro depth deep
  cases a with
  | none =>
      simp only [option]
      rw [A.scalar _ rfl]
      rfl
  | some b =>
      have value := h b rfl depth deep
      simp only [option]
      split
      · next null => exact absurd (null ▸ value) (refuses depth b)
      · rw [value, Except.map]

theorem decodeItems_restored {c : Codec α} {depth : Nat} {as : List α}
    (h : ∀ a ∈ as, c.decode depth (Written.ofJson (A.arrange (c.encode a))) = .ok a) :
    decodeItems c depth (Written.ofItems ((as.map c.encode).map A.arrange)) none = .ok as := by
  induction as with
  | nil => rfl
  | cons a as ih =>
      have others := ih fun b hb => h b (List.mem_cons_of_mem _ hb)
      exact bind_eq_ok.mpr ⟨a, h a List.mem_cons_self, bind_eq_ok.mpr ⟨as, others, rfl⟩⟩

theorem restores_list {c : Codec α} {as : List α} (h : ∀ a ∈ as, c.Restores A a) :
    (list c).Restores A as := by
  intro depth deep
  obtain ⟨below, rfl⟩ := Nat.exists_eq_add_one.mpr (Nat.zero_lt_of_lt deep)
  simp only [list, A.array]
  apply decodeItems_restored
  intro a ha
  have inside := nesting_le_of_item (List.mem_map_of_mem (f := c.encode) ha)
  exact h a ha below (inside.trans (Nat.le_of_succ_le_succ deep))

theorem restores_pair {c : Codec α} {c' : Codec β} {a : α} {b : β} (first : c.Restores A a)
    (second : c'.Restores A b) : (pair c c').Restores A (a, b) := by
  intro depth deep
  obtain ⟨below, rfl⟩ := Nat.exists_eq_add_one.mpr (Nat.zero_lt_of_lt deep)
  have deep := Nat.le_of_succ_le_succ deep
  have value := first below ((nesting_le_of_item List.mem_cons_self).trans deep)
  have value' := second below ((nesting_le_of_item (by simp)).trans deep)
  simp only [pair, A.array]
  have later : Record.decodeItems below none [.required "second" c']
      [Written.ofJson (A.arrange (c'.encode b))] = .ok (b, ()) :=
    bind_eq_ok.mpr ⟨b, value', bind_eq_ok.mpr ⟨(), rfl, rfl⟩⟩
  have both : Record.decodeItems below none [.required "first" c, .required "second" c']
      [Written.ofJson (A.arrange (c.encode a)), Written.ofJson (A.arrange (c'.encode b))] =
        .ok (a, b, ()) :=
    bind_eq_ok.mpr ⟨a, value, bind_eq_ok.mpr ⟨(b, ()), later, rfl⟩⟩
  exact map_eq_ok.mpr ⟨_, both, rfl⟩

/-- A value that is read as JSON first, and whose reader then finds what was written. -/
theorem restores_buffered {encode : α → Json} {decode? : Json → Option α} {a : α}
    (shallow : ∀ depth, (encode a).nesting ≤ depth → (A.arrange (encode a)).nesting ≤ depth)
    (h : decode? (A.arrange (encode a)) = some a) : (buffered encode decode?).Restores A a := by
  intro depth deep
  have sound := toJson_ofJson _ (shallow depth deep)
  exact bind_eq_ok.mpr ⟨_, sound, by rw [h]⟩

end Codec

namespace Draft

/-- The draft that holds the values of the fields with the given names. -/
def shown (seen : List String) : (fs : List Field) → Values fs → Draft fs
  | [], _ => ()
  | f :: fs, (a, rest) => (if f.name ∈ seen then some a else none, shown seen fs rest)

theorem shown_nil {fs : List Field} (vs : Values fs) : shown [] fs vs = empty fs := by
  induction fs with
  | nil => rfl
  | cons f fs ih =>
      obtain ⟨a, rest⟩ := vs
      rw [shown, if_neg List.not_mem_nil, ih rest]
      rfl

theorem shown_cons_of_not_mem {key : String} (seen : List String) {fs : List Field}
    (vs : Values fs) (other : key ∉ fs.map Field.name) :
    shown (key :: seen) fs vs = shown seen fs vs := by
  induction fs with
  | nil => rfl
  | cons f fs ih =>
      obtain ⟨a, rest⟩ := vs
      have first : key ≠ f.name := fun same => other (same ▸ List.mem_cons_self)
      have others : key ∉ fs.map Field.name := fun later => other (List.mem_cons_of_mem _ later)
      have same : f.name ∈ key :: seen ↔ f.name ∈ seen := by
        rw [List.mem_cons, or_iff_right first.symm]
      simp only [shown, same, ih rest others]
      rfl

end Draft

/-- A value is restored by the codec of its field, or is left out and is what a missing member
stands for. -/
def Field.Fits (f : Field) (a : f.Carrier) : Prop :=
  if f.omits a then f.absent = some a else f.codec.Restores A a

namespace Record

/-- Every value fits its field. -/
def Fits : (fs : List Field) → Values fs → Prop
  | [], _ => True
  | f :: fs, (a, rest) => f.Fits A a ∧ Fits fs rest

variable {A} {fs : List Field} {vs : Values fs}

theorem name_of_member {m : String × Json} (h : m ∈ members fs vs) : m.1 ∈ fs.map Field.name := by
  induction fs with
  | nil => cases h
  | cons f fs ih =>
      obtain ⟨a, rest⟩ := vs
      rw [members] at h
      split at h
      · exact List.mem_cons_of_mem _ (ih h)
      · rcases List.mem_cons.mp h with rfl | h
        · exact List.mem_cons_self
        · exact List.mem_cons_of_mem _ (ih h)

theorem nodup_members (distinct : (fs.map Field.name).Nodup) :
    ((members fs vs).map Prod.fst).Nodup := by
  induction fs with
  | nil => exact List.nodup_nil
  | cons f fs ih =>
      obtain ⟨a, rest⟩ := vs
      obtain ⟨notLater, distinct⟩ := List.nodup_cons.mp distinct
      rw [members]
      split
      · exact ih distinct
      · refine List.nodup_cons.mpr ⟨fun again => notLater ?_, ih distinct⟩
        obtain ⟨m, hm, same⟩ := List.mem_map.mp again
        have name := name_of_member hm
        rwa [same] at name

/-- A written member goes to the field of its name. -/
theorem put_shown (fits : Fits A fs vs) (distinct : (fs.map Field.name).Nodup) {below : Nat}
    {k : String} {j : Json} (member : (k, j) ∈ members fs vs) (shallow : j.nesting ≤ below)
    {seen : List String} (fresh : k ∉ seen) :
    Draft.put below k (Written.ofJson (A.arrange j)) fs (Draft.shown seen fs vs) =
      .ok (Draft.shown (k :: seen) fs vs) := by
  induction fs with
  | nil => cases member
  | cons f fs ih =>
      obtain ⟨a, rest⟩ := vs
      obtain ⟨notLater, distinct⟩ := List.nodup_cons.mp distinct
      obtain ⟨fits, later⟩ := fits
      rw [members] at member
      simp only [Draft.shown, Draft.put]
      by_cases here : (k, j) ∈ members fs rest
      · have other : k ≠ f.name := fun same => notLater (same ▸ name_of_member here)
        have same : f.name ∈ k :: seen ↔ f.name ∈ seen := by
          rw [List.mem_cons, or_iff_right other.symm]
        rw [if_neg other, ih later distinct here]
        simp only [same]
        rfl
      · split at member
        · exact absurd member here
        · next written =>
          rw [Field.Fits, if_neg written] at fits
          obtain ⟨rfl, rfl⟩ : k = f.name ∧ j = f.codec.encode a := by
            rcases List.mem_cons.mp member with same | later
            · exact Prod.mk.inj same
            · exact absurd later here
          rw [if_pos rfl, if_neg fresh, if_pos List.mem_cons_self,
            Draft.shown_cons_of_not_mem seen rest notLater]
          exact map_eq_ok.mpr ⟨a, fits below shallow, rfl⟩

theorem putAll_shown (fits : Fits A fs vs) (distinct : (fs.map Field.name).Nodup) {below : Nat}
    {ms : List (String × Json)} (seen : List String)
    (known : ∀ m ∈ ms, ∃ j, (m.1, j) ∈ members fs vs ∧ j.nesting ≤ below ∧ m.2 = A.arrange j)
    (once : (ms.map Prod.fst).Nodup) (fresh : ∀ m ∈ ms, m.1 ∉ seen) :
    Draft.putAll below fs none (Written.ofMembers ms) (Draft.shown seen fs vs) =
      .ok (Draft.shown ((ms.map Prod.fst).reverse ++ seen) fs vs) := by
  induction ms generalizing seen with
  | nil => rfl
  | cons m ms ih =>
      obtain ⟨j, member, shallow, value⟩ := known m List.mem_cons_self
      obtain ⟨notLater, once⟩ := List.nodup_cons.mp once
      have first := put_shown fits distinct member shallow (fresh m List.mem_cons_self)
      rw [← value] at first
      have fresh' : ∀ n ∈ ms, n.1 ∉ m.1 :: seen := by
        intro n hn again
        rcases List.mem_cons.mp again with same | again
        · exact notLater (same ▸ List.mem_map_of_mem hn)
        · exact fresh n (List.mem_cons_of_mem _ hn) again
      have others := ih (m.1 :: seen) (fun n hn => known n (List.mem_cons_of_mem _ hn)) once fresh'
      refine bind_eq_ok.mpr ⟨m.1, rfl, bind_eq_ok.mpr ⟨_, first, ?_⟩⟩
      rw [others]
      simp

theorem finish_shown (fits : Fits A fs vs) (seen : List String)
    (all : ∀ m ∈ members fs vs, m.1 ∈ seen) : (Draft.shown seen fs vs).finish? = some vs := by
  induction fs with
  | nil => rfl
  | cons f fs ih =>
      obtain ⟨a, rest⟩ := vs
      obtain ⟨fits, later⟩ := fits
      have slot : ((if f.name ∈ seen then some a else none).or f.absent) = some a ∧
          ∀ m ∈ members fs rest, m.1 ∈ seen := by
        rw [members] at all
        split at all
        · next left =>
          rw [Field.Fits, if_pos left] at fits
          rw [fits]
          exact ⟨by split <;> rfl, all⟩
        · next written =>
          rw [if_pos (all _ List.mem_cons_self)]
          exact ⟨rfl, fun m hm => all m (List.mem_cons_of_mem _ hm)⟩
      simp only [Draft.shown, Draft.finish?, slot.1, ih later slot.2]

theorem restores_values (distinct : (fs.map Field.name).Nodup) (fits : Fits A fs vs) :
    (values fs).Restores A vs := by
  intro depth deep
  obtain ⟨below, rfl⟩ := Nat.exists_eq_add_one.mpr (Nat.zero_lt_of_lt deep)
  have deep := Nat.le_of_succ_le_succ deep
  have once : ((members fs vs).map Prod.fst).Nodup := nodup_members distinct
  obtain ⟨ms, arranged, moved⟩ := A.object _ once
  have known : ∀ m ∈ ms, ∃ j, (m.1, j) ∈ members fs vs ∧ j.nesting ≤ below ∧ m.2 = A.arrange j := by
    intro m hm
    obtain ⟨n, hn, rfl⟩ := List.mem_map.mp (moved.mem_iff.mp hm)
    exact ⟨n.2, hn, (nesting_le_of_member hn).trans deep, rfl⟩
  have keys : (ms.map Prod.fst).Perm ((members fs vs).map Prod.fst) := by
    simpa [Function.comp_def] using moved.map Prod.fst
  have draft := putAll_shown fits distinct [] known (keys.nodup_iff.mpr once) (by simp)
  have finished := finish_shown fits ((ms.map Prod.fst).reverse ++ []) (by
    intro m hm
    rw [List.append_nil, List.mem_reverse]
    exact keys.mem_iff.mpr (List.mem_map_of_mem hm))
  rw [Draft.shown_nil] at draft
  simp only [values, arranged]
  refine bind_eq_ok.mpr ⟨_, draft, ?_⟩
  rw [finished]

theorem fits_omitted (name : String) {c : Codec α} (refuses : c.RefusesNull) {a : Option α}
    (h : ∀ b, a = some b → c.Restores A b) : (Field.omitted name c).Fits A a := by
  cases a with
  | none => exact rfl
  | some b => exact Codec.restores_option refuses h

theorem restores_codec {toValues : α → Values fs} {ofValues : Values fs → α} {a : α}
    (distinct : (fs.map Field.name).Nodup) (fits : Fits A fs (toValues a))
    (back : ofValues (toValues a) = a) : (codec fs toValues ofValues).Restores A a :=
  Codec.restores_imap (restores_values distinct fits) back

end Record

namespace Codec

variable {c : Codec α} {a : α}

theorem decode_of_ofText {text : String} (h : c.ofText text = .ok a) :
    c.decode maxDepth (Document.ofText text).value = .ok a := by
  obtain ⟨b, decoded, ended⟩ := bind_eq_ok.mp h
  split at ended
  · cases ended
  · cases ended
    exact decoded

theorem ofJson?_arranged {A : Arrangement} (shallow : (c.encode a).nesting ≤ maxDepth)
    (h : c.Restores A a) : c.ofJson? (A.arrange (c.encode a)) = some a := by
  rw [ofJson?, h maxDepth shallow]
  rfl

theorem ofText_text (shallow : (c.encode a).nesting ≤ maxDepth) (h : c.Restores .asWritten a) :
    c.ofText (c.text a) = .ok a := by
  rw [ofText, text, ofText_compactText, read_sound]
  exact h maxDepth shallow

theorem ofText_indented (shallow : (c.encode a).nesting ≤ maxDepth) (h : c.Restores .asWritten a) :
    c.ofText (c.indented a) = .ok a := by
  rw [ofText, indented, ofText_indentedText, read_sound]
  exact h maxDepth shallow

end Codec
end CorrelationPlot.Json
