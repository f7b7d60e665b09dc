import CorrelationPlot.Proofs.Script.Reading

/-!
The readers of single tokens read exactly the tokens of the grammar. Names and numbers are read as
far as they go, so there the two agree only before a comma or a closing parenthesis.
-/
namespace CorrelationPlot.Script
open Grammar Outcome

variable {α : Type} {p : Reader α} {language : List Char → α → Prop} {F : Option Char → Prop}

/-- What stands behind an argument. -/
def Delimits (o : Option Char) : Prop := o = some ',' ∨ o = some ')'

/-- A reader of bare tokens, without the blanks around them. -/
structure Lexes (p : Reader α) (language : List Char → α → Prop) (F : Option Char → Prop) :
    Prop where
  sound {cs rest : List Char} {a : α} : p cs = .ok (a, rest) →
    ∃ token, language token a ∧ cs = token ++ rest
  complete {token rest : List Char} {a : α} : language token a → F (ahead rest) →
    p (token ++ rest) = .ok (a, rest)
  starts {token : List Char} {a : α} : language token a →
    ∃ c more, token = c :: more ∧ isBlank c = false

theorem Lexes.skipBlank_token (h : Lexes p language F) {token behind : List Char} {a : α}
    (ht : language token a) : skipBlank (token ++ behind) = token ++ behind := by
  obtain ⟨c, more, rfl, hc⟩ := h.starts ht
  exact skipBlank_cons hc

theorem Lexes.spaced (h : Lexes p language F) : Reads (Reader.spaced p) (Token language) F where
  sound := by
    intro cs rest a read
    obtain ⟨⟨a, behind⟩, inner, same⟩ := map_eq_ok.mp read
    obtain ⟨rfl, rfl⟩ := Prod.mk.inj same
    obtain ⟨token, ht, hcs⟩ := h.sound inner
    obtain ⟨before, hbefore, left⟩ := exists_blanks cs
    obtain ⟨after, hafter, right⟩ := exists_blanks behind
    refine ⟨before, token, after, hbefore, ht, hafter, ?_⟩
    rw [← right, ← hcs, ← left]
  complete := by
    rintro cs cs' rest a ⟨before, token, after, hbefore, ht, hafter, rfl⟩ follow same
    rw [skipBlank_append hbefore, h.skipBlank_token ht] at same
    have inner : p (token ++ (after ++ rest)) = .ok (a, after ++ rest) :=
      h.complete ht (by rwa [ahead_append hafter])
    refine ⟨skipBlank (after ++ rest), ?_, ?_⟩
    · rw [Reader.spaced, same, inner]
      rfl
    · rw [skipBlank_skipBlank, skipBlank_append hafter]
  shrinks := by
    rintro cs rest a ⟨before, token, after, hbefore, ht, hafter, rfl⟩
    have shorter := length_skipBlank_le rest
    rw [skipBlank_append hbefore, h.skipBlank_token ht, List.length_append, List.length_append]
    omega

theorem keyword_of_lexes {p : Reader Unit} {w : String} {first : Char} {more : List Char}
    (h : Lexes p (WordText w) Anything) (spelled : w.toList = first :: more)
    (refuses : ∀ cs : List Char, cs.head? ≠ some first → Refuses p cs) :
    Keyword first (Reader.spaced p) (Word w) where
  toReads := h.spaced
  needs := by
    intro cs other
    obtain ⟨f, refused, mild⟩ := refuses (skipBlank cs) (by simpa [ahead] using other)
    exact ⟨f, by rw [Reader.spaced, refused]; rfl, mild⟩
  begins := by
    rintro cs rest _ ⟨before, token, after, hbefore, rfl, hafter, rfl⟩
    refine ⟨first, List.mem_singleton_self first, ?_⟩
    rw [ahead, skipBlank_append hbefore, h.skipBlank_token (a := ()) rfl, spelled]
    rfl
  consumes := by
    rintro cs rest ⟨before, token, after, hbefore, rfl, hafter, rfl⟩
    have shorter := length_skipBlank_le rest
    rw [skipBlank_append hbefore, h.skipBlank_token (a := ()) rfl, spelled, List.length_append,
      List.length_append, List.length_cons]
    omega

section Keyword

variable {w : String} {first : Char} {more : List Char}

theorem lexes_word (spelled : w.toList = first :: more) (visible : isBlank first = false) :
    Lexes (Reader.word w.toList) (WordText w) F where
  sound := by
    intro cs rest _ read
    unfold Reader.word at read
    split at read
    · next found =>
        obtain ⟨-, rfl⟩ := Prod.mk.inj (Except.ok.inj read)
        refine ⟨w.toList, rfl, ?_⟩
        exact (List.prefix_iff_eq_append.mp (List.isPrefixOf_iff_prefix.mp found)).symm
    · cases read
  complete := by
    intro token rest _ same _
    have found : w.toList.isPrefixOf (w.toList ++ rest) = true :=
      List.isPrefixOf_iff_prefix.mpr (List.prefix_append _ _)
    rw [same, Reader.word, if_pos found, List.drop_left]
  starts := by
    intro token _ same
    exact ⟨first, more, same.trans spelled, visible⟩

theorem keyword_word (spelled : w.toList = first :: more) (visible : isBlank first = false) :
    Keyword first (Reader.spaced (Reader.word w.toList)) (Word w) := by
  apply keyword_of_lexes (lexes_word spelled visible) spelled
  intro cs other
  have missing : w.toList.isPrefixOf cs = false := by
    rw [spelled]
    cases cs with
    | nil => rfl
    | cons c behind =>
        have differs : first ≠ c := by
          rintro rfl
          exact other rfl
        simp [List.isPrefixOf, differs]
  exact ⟨_, by rw [Reader.word, missing]; rfl, rfl⟩

theorem lexes_mark (spelled : w.toList = [first]) (visible : isBlank first = false) :
    Lexes (Reader.mark first) (WordText w) F where
  sound := by
    intro cs rest _ read
    cases cs with
    | nil => cases read
    | cons c behind =>
        simp only [Reader.mark] at read
        split at read
        · next same =>
            obtain ⟨-, rfl⟩ := Prod.mk.inj (Except.ok.inj read)
            exact ⟨w.toList, rfl, by rw [spelled, same]; rfl⟩
        · cases read
  complete := by
    intro token rest _ same _
    rw [same, spelled]
    exact if_pos rfl
  starts := by
    intro token _ same
    exact ⟨first, [], same.trans spelled, visible⟩

theorem keyword_mark (spelled : w.toList = [first]) (visible : isBlank first = false) :
    Keyword first (Reader.spaced (Reader.mark first)) (Word w) := by
  apply keyword_of_lexes (lexes_mark spelled visible) spelled
  intro cs other
  cases cs with
  | nil => exact ⟨_, rfl, rfl⟩
  | cons c behind =>
      have differs : first ≠ c := by
        rintro rfl
        exact other rfl
      exact ⟨_, if_neg differs, rfl⟩

end Keyword

theorem lexes_quoted : Lexes quoted StringText F where
  sound := by
    intro cs rest s read
    unfold quoted at read
    split at read
    · next tail =>
        split at read
        · next c behind ended =>
            obtain ⟨rfl, rfl⟩ := Prod.mk.inj (Except.ok.inj read)
            have closing : c = '"' := by
              have head := List.head?_dropWhile_not (· ≠ '"') tail
              rw [ended] at head
              simpa using head
            have split := List.takeWhile_append_dropWhile (p := (· ≠ '"')) (l := tail)
            rw [ended, closing] at split
            refine ⟨_, ⟨?_, rfl⟩, ?_⟩
            · rw [String.toList_ofList]
              intro inside
              simpa using List.all_eq_true.mp List.all_takeWhile _ inside
            · rw [String.toList_ofList]
              simpa using split.symm
        · cases read
    · cases read
  complete := by
    rintro token rest s ⟨plain, rfl⟩ -
    obtain ⟨front, behind⟩ : (s.toList ++ '"' :: rest).takeWhile (· ≠ '"') = s.toList ∧
        (s.toList ++ '"' :: rest).dropWhile (· ≠ '"') = '"' :: rest := by
      apply takeWhile_dropWhile_append
      · intro c hc
        have : c ≠ '"' := by
          rintro rfl
          exact plain hc
        simpa using this
      · intro c hc
        cases hc
        rfl
    simp only [quoted, List.cons_append, List.append_assoc, List.nil_append, behind, front,
      String.ofList_toList]
  starts := by
    rintro token s ⟨-, rfl⟩
    exact ⟨'"', _, rfl, rfl⟩

theorem isLetter_eq (c : Char) : isLetter c = c.isAlpha := by
  have lower : (decide ('a' ≤ c) && decide (c ≤ 'z')) = c.isLower := rfl
  have upper : (decide ('A' ≤ c) && decide (c ≤ 'Z')) = c.isUpper := (Bool.decide_and _ _).symm
  rw [isLetter, lower, upper]
  exact Bool.or_comm _ _

theorem startsIdentifier_iff {c : Char} :
    startsIdentifier c = true ↔ c.isAlpha = true ∨ c = '_' := by
  simp [startsIdentifier, isLetter_eq]

theorem continuesIdentifier_iff {c : Char} :
    continuesIdentifier c = true ↔ c.isAlphanum = true ∨ c = '_' ∨ c = '.' := by
  have digit : Digits.isDigit c = c.isDigit := rfl
  simp [continuesIdentifier, isLetter_eq, digit, Char.isAlphanum, or_assoc]

theorem not_isBlank {q : Char → Bool} {c : Char} (h : q c = true)
    (blanks : q ' ' = false ∧ q '\t' = false ∧ q '\r' = false ∧ q '\n' = false) :
    isBlank c = false := by
  obtain ⟨space, tab, cr, lf⟩ := blanks
  by_contra blank
  rcases isBlank_iff.mp (by simpa using blank) with rfl | rfl | rfl | rfl
  · exact Bool.noConfusion (space.symm.trans h)
  · exact Bool.noConfusion (tab.symm.trans h)
  · exact Bool.noConfusion (cr.symm.trans h)
  · exact Bool.noConfusion (lf.symm.trans h)

/-- What stands in front of a delimiter is a blank, or it is the delimiter. -/
theorem head_of_delimits {cs : List Char} (h : Delimits (ahead cs)) {c : Char}
    (head : cs.head? = some c) :
    c = ' ' ∨ c = '\t' ∨ c = '\r' ∨ c = '\n' ∨ c = ',' ∨ c = ')' := by
  cases cs with
  | nil => cases head
  | cons d more =>
      obtain rfl : d = c := Option.some.inj head
      by_cases blank : isBlank d = true
      · rcases isBlank_iff.mp blank with h | h | h | h <;> simp [h]
      · rw [ahead, skipBlank_cons (by simpa using blank)] at h
        rcases h with h | h <;> obtain rfl := Option.some.inj h <;> simp

theorem lexes_identifier : Lexes identifier IdentifierText Delimits where
  sound := by
    intro cs rest s read
    cases cs with
    | nil => cases read
    | cons c tail =>
        simp only [identifier] at read
        split at read
        · next first =>
            obtain ⟨rfl, rfl⟩ := Prod.mk.inj (Except.ok.inj read)
            refine ⟨c :: tail.takeWhile continuesIdentifier, ⟨String.toList_ofList.symm, _, _, rfl,
              startsIdentifier_iff.mp first, ?_⟩, ?_⟩
            · intro d hd
              exact continuesIdentifier_iff.mp (List.all_eq_true.mp List.all_takeWhile d hd)
            · rw [List.cons_append, List.takeWhile_append_dropWhile]
        · cases read
  complete := by
    rintro token rest s ⟨spelled, c, more, rfl, first, others⟩ follow
    obtain ⟨front, behind⟩ : (more ++ rest).takeWhile continuesIdentifier = more ∧
        (more ++ rest).dropWhile continuesIdentifier = rest := by
      apply takeWhile_dropWhile_append
      · intro d hd
        exact continuesIdentifier_iff.mpr (others d hd)
      · intro d head
        rcases head_of_delimits follow head with rfl | rfl | rfl | rfl | rfl | rfl <;> rfl
    rw [List.cons_append, identifier, if_pos (startsIdentifier_iff.mpr first), front, behind,
      spelled, String.ofList_toList]
  starts := by
    rintro token s ⟨-, c, more, rfl, first, -⟩
    exact ⟨c, more, rfl, not_isBlank (startsIdentifier_iff.mpr first) (by decide)⟩

theorem lexes_fieldName : Lexes fieldName FieldText Delimits where
  sound := by
    intro cs rest s read
    unfold fieldName Reader.orElse at read
    split at read
    · split at read
      · cases read
      · obtain ⟨token, bare, hcs⟩ := lexes_identifier.sound read
        exact ⟨token, .inr bare, hcs⟩
    · next first =>
        obtain ⟨token, text, hcs⟩ := lexes_quoted.sound (F := Anything) (read ▸ first)
        exact ⟨token, .inl text, hcs⟩
  complete := by
    intro token rest s text follow
    cases text with
    | inl text => rw [fieldName, Reader.orElse, lexes_quoted.complete text follow]
    | inr bare =>
        have read := lexes_identifier.complete bare follow
        obtain ⟨-, c, more, rfl, first, -⟩ := bare
        have unquoted : c ≠ '"' := by
          rintro rfl
          exact absurd first (by decide)
        have refused : quoted (c :: more ++ rest) = .error (.at .mark (c :: more ++ rest)) := by
          unfold quoted
          split
          · next h => exact absurd (List.cons.inj h).1 unquoted
          · rfl
        rw [fieldName, Reader.orElse, refused]
        exact read
  starts := by
    intro token s text
    cases text with
    | inl text => exact (lexes_quoted (F := Anything)).starts text
    | inr bare => exact lexes_identifier.starts bare

theorem closes_of_delimits {rest : List Char} (h : Delimits (ahead rest)) :
    Literal.Closes rest := by
  intro c head
  rcases head_of_delimits h head with rfl | rfl | rfl | rfl | rfl | rfl <;> decide

/-- A named number begins with a letter, so it is neither signed nor a literal. -/
theorem number_of_letter {c : Char} {cs : List Char} (h : c.isAlpha = true) :
    number (c :: cs) = namedNumber (c :: cs) := by
  have unsigned : Literal.readSign (c :: cs) = (false, c :: cs) := Literal.readSign_letter .none h
  simp only [number, unsigned, Literal.read_letter h]

theorem letter_of_name {token : List Char} {d e f : Char}
    (h : token.map Char.toLower = [d, e, f]) (hd : d.isAlpha = true) :
    ∃ a b c, token = [a, b, c] ∧ a.isAlpha = true := by
  obtain ⟨a, token, rfl, first, h⟩ := List.map_eq_cons_iff.mp h
  obtain ⟨b, token, rfl, -, h⟩ := List.map_eq_cons_iff.mp h
  obtain ⟨c, token, rfl, -, h⟩ := List.map_eq_cons_iff.mp h
  obtain rfl := List.map_eq_nil_iff.mp h
  exact ⟨a, b, c, rfl, isAlpha_of_toLower first hd⟩

theorem lexes_number : Lexes number NumberText Delimits where
  sound := by
    intro cs rest v read
    obtain ⟨negative, unsigned, signed⟩ : ∃ n u, Literal.readSign cs = (n, u) := ⟨_, _, rfl⟩
    simp only [number, signed] at read
    split at read
    · next l rest' inner =>
        obtain ⟨rfl, rfl⟩ := Prod.mk.inj (Except.ok.inj read)
        obtain ⟨sign, hsign, rfl⟩ := Literal.readSign_sound signed
        obtain ⟨digits, hdigits, rfl⟩ := Literal.read_sound inner
        exact ⟨_, .literal hsign hdigits, (List.append_assoc ..).symm⟩
    · cases read
    · simp only [namedNumber] at read
      split at read
      · next name =>
          obtain ⟨rfl, rfl⟩ := Prod.mk.inj (Except.ok.inj read)
          exact ⟨_, .nan name, (List.take_append_drop 3 cs).symm⟩
      · split at read
        · next name =>
            obtain ⟨rfl, rfl⟩ := Prod.mk.inj (Except.ok.inj read)
            exact ⟨_, .infinity name, (List.take_append_drop 3 cs).symm⟩
        · cases read
  complete := by
    intro token rest v h follow
    cases h with
    | @literal sign digits negative l hsign hdigits =>
        simp only [number, List.append_assoc, Literal.readSign_literal hsign hdigits rest,
          Literal.read_append hdigits (closes_of_delimits follow)]
    | nan name =>
        obtain ⟨a, b, c, rfl, letter⟩ := letter_of_name name (by decide)
        have lower : ((a :: b :: c :: rest).take 3).map Char.toLower = ['n', 'a', 'n'] := name
        rw [List.cons_append, number_of_letter letter]
        exact if_pos lower
    | infinity name =>
        obtain ⟨a, b, c, rfl, letter⟩ := letter_of_name name (by decide)
        have lower : ((a :: b :: c :: rest).take 3).map Char.toLower = ['i', 'n', 'f'] := name
        rw [List.cons_append, number_of_letter letter]
        simp only [namedNumber, List.cons_append, List.nil_append, lower]
        rfl
  starts := by
    intro token v h
    cases h with
    | literal hsign hdigits =>
        obtain ⟨c, more, rfl, hc⟩ := hdigits.begins
        cases hsign with
        | plus => exact ⟨_, _, rfl, rfl⟩
        | minus => exact ⟨_, _, rfl, rfl⟩
        | none =>
            have shown : (c.isDigit || c = '.') = true := by simpa using hc
            exact ⟨c, _, rfl, not_isBlank (q := fun c => c.isDigit || c = '.') shown (by decide)⟩
    | nan name =>
        obtain ⟨a, b, c, rfl, letter⟩ := letter_of_name name (by decide)
        exact ⟨a, _, rfl, not_isBlank letter (by decide)⟩
    | infinity name =>
        obtain ⟨a, b, c, rfl, letter⟩ := letter_of_name name (by decide)
        exact ⟨a, _, rfl, not_isBlank letter (by decide)⟩

end CorrelationPlot.Script
