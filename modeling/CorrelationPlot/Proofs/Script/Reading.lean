import CorrelationPlot.Proofs.Outcome
import CorrelationPlot.Proofs.Script.Grammar
import Mathlib.Data.List.DropRight

/-!
What it takes for a reader to read a phrase of the grammar, and that the ways to combine readers
keep it. Readers differ in the blanks they leave, so texts are compared from their first other
character on.
-/
namespace CorrelationPlot.Script
open Grammar Outcome

variable {α β γ : Type} {p : Reader α} {P : Phrase α} {F G : Option Char → Prop}

theorem isBlank_iff {c : Char} :
    isBlank c = true ↔ c = ' ' ∨ c = '\t' ∨ c = '\r' ∨ c = '\n' := by
  simp [isBlank, or_assoc]

theorem skipBlank_append {before cs : List Char} (h : Blanks before) :
    skipBlank (before ++ cs) = skipBlank cs :=
  List.dropWhile_append_of_pos fun c hc => isBlank_iff.mpr (h c hc)

theorem skipBlank_cons {c : Char} {cs : List Char} (h : isBlank c = false) :
    skipBlank (c :: cs) = c :: cs := by
  simp [skipBlank, h]

theorem skipBlank_skipBlank (cs : List Char) : skipBlank (skipBlank cs) = skipBlank cs :=
  List.dropWhile_idempotent _ _

/-- A text is a run of blanks and what is left without them. -/
theorem exists_blanks (cs : List Char) : ∃ before, Blanks before ∧ cs = before ++ skipBlank cs := by
  refine ⟨cs.takeWhile isBlank, ?_, List.takeWhile_append_dropWhile.symm⟩
  intro c hc
  exact isBlank_iff.mp (List.all_eq_true.mp List.all_takeWhile c hc)

theorem length_skipBlank_le (cs : List Char) : (skipBlank cs).length ≤ cs.length :=
  (List.dropWhile_sublist isBlank).length_le

/-- The first character that is no blank. -/
def ahead (cs : List Char) : Option Char := (skipBlank cs).head?

theorem ahead_append {before cs : List Char} (h : Blanks before) :
    ahead (before ++ cs) = ahead cs := by
  rw [ahead, skipBlank_append h, ahead]

/-- No condition on what follows. -/
def Anything (_ : Option Char) : Prop := True

/-- A reader of the phrase reads it whatever blanks stand before it, if what follows it is fit to
end it. The text that is left never grows. -/
structure Reads (p : Reader α) (P : Phrase α) (F : Option Char → Prop) : Prop where
  sound {cs rest : List Char} {a : α} : p cs = .ok (a, rest) → P cs a rest
  complete {cs cs' rest : List Char} {a : α} : P cs a rest → F (ahead rest) →
    skipBlank cs' = skipBlank cs →
    ∃ rest', p cs' = .ok (a, rest') ∧ skipBlank rest' = skipBlank rest
  shrinks {cs rest : List Char} {a : α} : P cs a rest →
    (skipBlank rest).length ≤ (skipBlank cs).length

def Refuses (p : Reader α) (cs : List Char) : Prop := ∃ f, p cs = .error f ∧ f.fatal = false

/-- The phrase is told by its first character, and so is a text that the reader refuses. -/
structure ReadsFrom (start : List Char) (p : Reader α) (P : Phrase α) (F : Option Char → Prop) :
    Prop extends Reads p P F where
  begins {cs rest : List Char} {a : α} : P cs a rest → ∃ c ∈ start, ahead cs = some c
  needs {cs : List Char} : (∀ c ∈ start, ahead cs ≠ some c) → Refuses p cs

theorem Reads.congr {Q : Phrase α} (h : Reads p P F)
    (same : ∀ cs a rest, P cs a rest ↔ Q cs a rest) : Reads p Q F := by
  have : P = Q := by
    funext cs a rest
    exact propext (same cs a rest)
  exact this ▸ h

def Phrase.bind (P : Phrase α) (Q : α → Phrase β) : Phrase β := fun cs b rest =>
  ∃ a behind, P cs a behind ∧ Q a behind b rest

/-- One reader behind another. What follows the first is what the second begins with. -/
theorem Reads.bind {k : List Char → α × List Char → Except Failure (β × List Char)}
    {Q : α → Phrase β} (hp : Reads p P F)
    (hq : ∀ front a, Reads (fun cs => k front (a, cs)) (Q a) G)
    (meet : ∀ {a cs b rest}, Q a cs b rest → G (ahead rest) → F (ahead cs)) :
    Reads (fun cs => p cs >>= k cs) (Phrase.bind P Q) G where
  sound := by
    intro cs rest b h
    obtain ⟨⟨a, behind⟩, first, second⟩ := bind_eq_ok.mp h
    exact ⟨a, behind, hp.sound first, (hq cs a).sound second⟩
  complete := by
    intro cs cs' rest b ⟨a, behind, first, second⟩ follow same
    obtain ⟨mid, readFirst, sameMid⟩ := hp.complete first (meet second follow) same
    obtain ⟨rest', readSecond, sameRest⟩ := (hq cs' a).complete second follow sameMid
    exact ⟨rest', bind_eq_ok.mpr ⟨_, readFirst, readSecond⟩, sameRest⟩
  shrinks := by
    intro cs rest b ⟨a, behind, first, second⟩
    exact ((hq [] a).shrinks second).trans (hp.shrinks first)

/-- A last step that reads nothing and accepts or refuses what has been read. -/
theorem Reads.verdict (accept : α → Prop) {k : List Char → Except Failure (α × List Char)}
    (h : ∀ cs a rest, k cs = .ok (a, rest) ↔ accept a ∧ rest = cs) :
    Reads k (fun cs a rest => accept a ∧ rest = cs) F where
  sound := (h _ _ _).mp
  complete := by
    rintro cs cs' rest a ⟨accepted, rfl⟩ _ same
    exact ⟨cs', (h _ _ _).mpr ⟨accepted, rfl⟩, same⟩
  shrinks := by
    rintro cs rest a ⟨-, rfl⟩
    exact Nat.le_refl _

theorem Reads.map {f : α → β} (h : Reads p P F) :
    Reads (Reader.map f p) (fun cs b rest => ∃ a, P cs a rest ∧ f a = b) F where
  sound := by
    intro cs rest b read
    obtain ⟨⟨a, behind⟩, inner, same⟩ := map_eq_ok.mp read
    obtain ⟨rfl, rfl⟩ := Prod.mk.inj same
    exact ⟨a, h.sound inner, rfl⟩
  complete := by
    rintro cs cs' rest b ⟨a, phrase, rfl⟩ follow same
    obtain ⟨rest', read, sameRest⟩ := h.complete phrase follow same
    exact ⟨rest', map_eq_ok.mpr ⟨_, read, rfl⟩, sameRest⟩
  shrinks := by
    intro cs rest b ⟨a, phrase, _⟩
    exact h.shrinks phrase

theorem ReadsFrom.congr {start : List Char} {Q : Phrase α} (h : ReadsFrom start p P F)
    (same : ∀ cs a rest, P cs a rest ↔ Q cs a rest) : ReadsFrom start p Q F where
  toReads := h.toReads.congr same
  begins phrase := h.begins ((same _ _ _).mpr phrase)
  needs := h.needs

theorem ReadsFrom.bind {start : List Char} {Q : α → Phrase β}
    {k : List Char → α × List Char → Except Failure (β × List Char)} (hp : ReadsFrom start p P F)
    (hq : ∀ front a, Reads (fun cs => k front (a, cs)) (Q a) G)
    (meet : ∀ {a cs b rest}, Q a cs b rest → G (ahead rest) → F (ahead cs)) :
    ReadsFrom start (fun cs => p cs >>= k cs) (Phrase.bind P Q) G where
  toReads := hp.toReads.bind hq meet
  begins := by
    intro cs rest b ⟨a, behind, first, _⟩
    exact hp.begins first
  needs := by
    intro cs other
    obtain ⟨f, refused, mild⟩ := hp.needs other
    exact ⟨f, by simp only [refused]; rfl, mild⟩

theorem ReadsFrom.map {start : List Char} {f : α → β} (h : ReadsFrom start p P F) :
    ReadsFrom start (Reader.map f p) (fun cs b rest => ∃ a, P cs a rest ∧ f a = b) F where
  toReads := h.toReads.map
  begins := by
    intro cs rest b ⟨a, phrase, _⟩
    exact h.begins phrase
  needs := by
    intro cs other
    obtain ⟨f, refused, mild⟩ := h.needs other
    exact ⟨f, by simp only [Reader.map, refused]; rfl, mild⟩

/-- Two readings of texts that begin differently. -/
theorem ReadsFrom.orElse {q : Reader α} {Q : Phrase α} {s t : List Char}
    (hp : ReadsFrom s p P F) (hq : ReadsFrom t q Q F) (apart : ∀ c ∈ s, c ∉ t) :
    ReadsFrom (s ++ t) (Reader.orElse p q) (fun cs a rest => P cs a rest ∨ Q cs a rest) F where
  sound := by
    intro cs rest a read
    unfold Reader.orElse at read
    split at read
    · split at read
      · cases read
      · exact .inr (hq.sound read)
    · next first => exact .inl (hp.sound (read ▸ first))
  complete := by
    intro cs cs' rest a phrase follow same
    cases phrase with
    | inl phrase =>
        obtain ⟨rest', read, sameRest⟩ := hp.complete phrase follow same
        exact ⟨rest', by simp only [Reader.orElse, read], sameRest⟩
    | inr phrase =>
        obtain ⟨rest', read, sameRest⟩ := hq.complete phrase follow same
        obtain ⟨c, hc, first⟩ := hq.begins phrase
        obtain ⟨f, refused, mild⟩ : Refuses p cs' := by
          apply hp.needs
          intro d hd other
          rw [ahead, same, ← ahead, first] at other
          exact apart d hd (Option.some.inj other ▸ hc)
        exact ⟨rest', by simpa [Reader.orElse, refused, mild] using read, sameRest⟩
  shrinks := by
    intro cs rest a phrase
    cases phrase with
    | inl phrase => exact hp.shrinks phrase
    | inr phrase => exact hq.shrinks phrase
  begins := by
    intro cs rest a phrase
    cases phrase with
    | inl phrase =>
        obtain ⟨c, hc, first⟩ := hp.begins phrase
        exact ⟨c, List.mem_append_left t hc, first⟩
    | inr phrase =>
        obtain ⟨c, hc, first⟩ := hq.begins phrase
        exact ⟨c, List.mem_append_right s hc, first⟩
  needs := by
    intro cs other
    obtain ⟨f, refused, mild⟩ := hp.needs fun c hc => other c (List.mem_append_left t hc)
    obtain ⟨g, refused', mild'⟩ := hq.needs fun c hc => other c (List.mem_append_right s hc)
    exact ⟨g, by simp [Reader.orElse, refused, mild, refused'], mild'⟩

/-- A word or mark, which takes at least the character it is told by. -/
structure Keyword (first : Char) (p : Reader Unit) (S : Phrase Unit) : Prop
    extends ReadsFrom [first] p S Anything where
  consumes {cs rest : List Char} : S cs () rest → (skipBlank rest).length < (skipBlank cs).length

theorem Keyword.starts {first : Char} {p : Reader Unit} {S : Phrase Unit} (h : Keyword first p S)
    {cs rest : List Char} (phrase : S cs () rest) : ahead cs = some first := by
  obtain ⟨c, hc, found⟩ := h.begins phrase
  rwa [List.mem_singleton.mp hc] at found

theorem Keyword.refuses {first : Char} {p : Reader Unit} {S : Phrase Unit} (h : Keyword first p S)
    {cs : List Char} (other : ahead cs ≠ some first) : Refuses p cs := by
  apply h.needs
  intro c hc
  rwa [List.mem_singleton.mp hc]

/-- What stands behind a keyword is read behind it. -/
def Phrase.behind (S : Phrase Unit) (P : Phrase α) : Phrase α := fun cs a rest =>
  ∃ mid, S cs () mid ∧ P mid a rest

theorem Keyword.lead {first : Char} {p : Reader Unit} {S : Phrase Unit} (h : Keyword first p S)
    {k : List Char → Unit × List Char → Except Failure (α × List Char)}
    (hk : ∀ front, Reads (fun cs => k front ((), cs)) P F) :
    ReadsFrom [first] (fun cs => p cs >>= k cs) (Phrase.behind S P) F := by
  have both := h.toReadsFrom.bind (fun front _ => hk front) fun _ _ => trivial
  refine both.congr ?_
  intro cs a rest
  exact ⟨fun ⟨_, mid, left, right⟩ => ⟨mid, left, right⟩,
    fun ⟨mid, left, right⟩ => ⟨(), mid, left, right⟩⟩

theorem Keyword.then {first : Char} {p : Reader Unit} {S : Phrase Unit} (h : Keyword first p S)
    {k : List Char → Unit × List Char → Except Failure (α × List Char)}
    (hk : ∀ front, Reads (fun cs => k front ((), cs)) P F) :
    Reads (fun cs => p cs >>= k cs) (Phrase.behind S P) F :=
  (h.lead hk).toReads

section Separated

variable {separator : Reader Unit} {S : Phrase Unit} {bar : Char}

theorem after_eq_ok {cs rest : List Char} {a : α} :
    Reader.after separator p cs = .ok (a, rest) ↔
      ∃ behind, separator cs = .ok ((), behind) ∧ p behind = .ok (a, rest) := by
  rw [Reader.after, bind_eq_ok]
  constructor
  · rintro ⟨⟨⟨⟩, behind⟩, first, second⟩
    exact ⟨behind, first, second⟩
  · intro ⟨behind, first, second⟩
    exact ⟨_, first, second⟩

theorem more_stop (hs : Keyword bar separator S) {cs : List Char} (h : ahead cs ≠ some bar)
    (fuel : Nat) : Reader.more separator p fuel cs = .ok ([], cs) := by
  cases fuel with
  | zero => rfl
  | succ fuel =>
      obtain ⟨f, refused, mild⟩ := hs.refuses h
      have first : Reader.after separator p cs = .error f := by
        simp only [Reader.after, refused]
        rfl
      simp [Reader.more, first, mild]

theorem more_next {cs mid behind rest : List Char} {a : α} {as : List α} {fuel : Nat}
    (mark : separator cs = .ok ((), mid)) (element : p mid = .ok (a, behind))
    (others : Reader.more separator p fuel behind = .ok (as, rest)) :
    Reader.more separator p (fuel + 1) cs = .ok (a :: as, rest) := by
  have first : Reader.after separator p cs = .ok (a, behind) :=
    after_eq_ok.mpr ⟨mid, mark, element⟩
  simp only [Reader.more, first, others, Except.map]

/-- The elements behind the first one are none, or a separator and separated elements. -/
theorem more_sound (hs : Keyword bar separator S) (hp : Reads p P F) (fuel : Nat)
    {cs rest : List Char} {as : List α}
    (h : Reader.more separator p fuel cs = .ok (as, rest)) :
    (as = [] ∧ rest = cs) ∨ ∃ next, S cs () next ∧ Separated S P next as rest := by
  induction fuel generalizing cs as with
  | zero =>
      obtain ⟨rfl, rfl⟩ := Prod.mk.inj (Except.ok.inj h)
      exact .inl ⟨rfl, rfl⟩
  | succ fuel ih =>
      unfold Reader.more at h
      split at h
      · split at h
        · cases h
        · obtain ⟨rfl, rfl⟩ := Prod.mk.inj (Except.ok.inj h)
          exact .inl ⟨rfl, rfl⟩
      · next a behind first =>
          obtain ⟨next, mark, element⟩ := after_eq_ok.mp first
          obtain ⟨⟨as', rest'⟩, others, same⟩ := map_eq_ok.mp h
          obtain ⟨rfl, rfl⟩ := Prod.mk.inj same
          refine .inr ⟨next, hs.sound mark, ?_⟩
          rcases ih others with ⟨rfl, rfl⟩ | ⟨next', mark', tail⟩
          · exact .one (hp.sound element)
          · exact .more (hp.sound element) mark' tail

/-- The induction is on the elements. Each separator takes a character, so the fuel lasts. -/
theorem more_complete (hs : Keyword bar separator S) (hp : Reads p P F) (meet : F (some bar))
    {cs' next rest : List Char} {as : List α} (h : Separated S P next as rest)
    (follow : F (ahead rest)) (stop : ahead rest ≠ some bar) (start : S cs' () next)
    {cs : List Char} (same : skipBlank cs = skipBlank cs') {fuel : Nat}
    (enough : (skipBlank cs).length ≤ fuel) :
    ∃ rest', Reader.more separator p fuel cs = .ok (as, rest') ∧
      skipBlank rest' = skipBlank rest := by
  induction h generalizing cs cs' fuel with
  | one element =>
      obtain ⟨mid, mark, sameMid⟩ := hs.complete start trivial same
      obtain ⟨rest', read, sameRest⟩ := hp.complete element follow sameMid
      have shorter := hs.consumes start
      rw [← same] at shorter
      obtain ⟨fuel, rfl⟩ := Nat.exists_eq_add_one_of_ne_zero (by omega : fuel ≠ 0)
      have ended : ahead rest' ≠ some bar := by rwa [ahead, sameRest]
      exact ⟨rest', more_next mark read (more_stop hs ended fuel), sameRest⟩
  | more element mark' _ ih =>
      obtain ⟨mid, mark, sameMid⟩ := hs.complete start trivial same
      have fit := hs.starts mark' ▸ meet
      obtain ⟨behind', read, sameBehind⟩ := hp.complete element fit sameMid
      have shorter := hs.consumes start
      have shrunk := hp.shrinks element
      rw [← same] at shorter
      rw [← sameBehind] at shrunk
      obtain ⟨fuel, rfl⟩ := Nat.exists_eq_add_one_of_ne_zero (by omega : fuel ≠ 0)
      obtain ⟨rest', others, sameRest⟩ :=
        ih follow stop mark' sameBehind (by omega : (skipBlank behind').length ≤ fuel)
      exact ⟨rest', more_next mark read others, sameRest⟩

theorem length_separated (hs : Keyword bar separator S) (hp : Reads p P F)
    {cs rest : List Char} {as : List α} (h : Separated S P cs as rest) :
    (skipBlank rest).length ≤ (skipBlank cs).length := by
  induction h with
  | one element => exact hp.shrinks element
  | more element mark _ ih => exact ih.trans ((hs.consumes mark).le.trans (hp.shrinks element))

theorem Reads.separated1 (hs : Keyword bar separator S) (hp : Reads p P F)
    (meet : F (some bar)) :
    Reads (Reader.separated1 separator p) (Separated S P) (fun o => F o ∧ o ≠ some bar) where
  sound := by
    intro cs rest as read
    obtain ⟨⟨a, behind⟩, first, tail⟩ := bind_eq_ok.mp read
    obtain ⟨⟨as', rest'⟩, others, same⟩ := bind_eq_ok.mp tail
    obtain ⟨rfl, rfl⟩ := Prod.mk.inj (Except.ok.inj same)
    rcases more_sound hs hp _ others with ⟨rfl, rfl⟩ | ⟨next, mark, elements⟩
    · exact .one (hp.sound first)
    · exact .more (hp.sound first) mark elements
  complete := by
    intro cs cs' rest as phrase ⟨follow, stop⟩ same
    cases phrase with
    | one element =>
        obtain ⟨rest', read, sameRest⟩ := hp.complete element follow same
        have ended : ahead rest' ≠ some bar := by rwa [ahead, sameRest]
        have others := more_stop (p := p) hs ended rest'.length
        exact ⟨rest', bind_eq_ok.mpr ⟨_, read, bind_eq_ok.mpr ⟨_, others, rfl⟩⟩, sameRest⟩
    | more element mark elements =>
        have fit := hs.starts mark ▸ meet
        obtain ⟨behind, read, sameBehind⟩ := hp.complete element fit same
        obtain ⟨rest', others, sameRest⟩ := more_complete hs hp meet elements follow stop mark
          sameBehind (length_skipBlank_le behind)
        exact ⟨rest', bind_eq_ok.mpr ⟨_, read, bind_eq_ok.mpr ⟨_, others, rfl⟩⟩, sameRest⟩
  shrinks := length_separated hs hp

/-- Any number of elements; none only where no element begins. -/
theorem Reads.separated {start : List Char} (hs : Keyword bar separator S)
    (hp : ReadsFrom start p P F) (meet : F (some bar)) :
    Reads (Reader.separated separator p)
      (fun cs as rest => Separated S P cs as rest ∨ as = [] ∧ rest = cs)
      (fun o => (F o ∧ o ≠ some bar) ∧ ∀ c ∈ start, o ≠ some c) where
  sound := by
    intro cs rest as read
    unfold Reader.separated Reader.orElse at read
    split at read
    · split at read
      · cases read
      · obtain ⟨rfl, rfl⟩ := Prod.mk.inj (Except.ok.inj read)
        exact .inr ⟨rfl, rfl⟩
    · next first => exact .inl ((Reads.separated1 hs hp.toReads meet).sound (read ▸ first))
  complete := by
    rintro cs cs' rest as (phrase | ⟨rfl, rfl⟩) ⟨follow, none⟩ same
    · obtain ⟨rest', read, sameRest⟩ :=
        (Reads.separated1 hs hp.toReads meet).complete phrase follow same
      exact ⟨rest', by simp only [Reader.separated, Reader.orElse, read], sameRest⟩
    · obtain ⟨f, refused, mild⟩ : Refuses p cs' := by
        apply hp.needs
        rw [ahead, same]
        exact none
      have first : Reader.separated1 separator p cs' = .error f := by
        simp only [Reader.separated1, refused]
        rfl
      exact ⟨cs', by simp [Reader.separated, Reader.orElse, first, mild], same⟩
  shrinks := by
    rintro cs rest as (phrase | ⟨-, rfl⟩)
    · exact length_separated hs hp.toReads phrase
    · exact Nat.le_refl _

end Separated

end CorrelationPlot.Script
