import RegisterMap.Name.Pattern
import RegisterMap.Proofs.Name.Words
import RegisterMap.Proofs.Text.Pattern

/-!
# Words as matches

The words of a name are what a search for their pattern finds. The search passes over what no
alternative matches, but some alternative matches wherever a letter or digit stands: the match of a
text is one character longer than that of the rest exactly where the character joins the rest.
-/

namespace RegisterMap.Name

open Text (Match Pattern)

open Text.Pattern

variable {p : Char → Bool} {c : Char} {cs : List Char} {m : Match}

/-! ### Matches of the alternatives -/

lemma isUpper_eq_false_of_isLower (h : c.isLower = true) : c.isUpper = false := by
  simpa using Char.not_isUpper_of_isLower h

lemma isLower_eq_false_of_isUpper (h : c.isUpper = true) : c.isLower = false := by
  simpa using Char.not_isLower_of_isUpper h

lemma isUpper_eq_false_of_isDigit (h : c.isDigit = true) : c.isUpper = false :=
  (Bool.or_eq_false_iff.mp (not_isAlpha_of_isDigit h)).1

lemma isLower_eq_false_of_isDigit (h : c.isDigit = true) : c.isLower = false :=
  (Bool.or_eq_false_iff.mp (not_isAlpha_of_isDigit h)).2

lemma isDigit_eq_false_of_isUpper (h : c.isUpper = true) : c.isDigit = false := by
  refine Bool.eq_false_iff.mpr fun hdigit => ?_
  rw [isUpper_eq_false_of_isDigit hdigit] at h
  cases h

lemma first?_beforeCapitalized_eq_none (hc : c.isUpper = false) (cs : List Char) :
    beforeCapitalized.first? (c :: cs) = none := by
  rw [beforeCapitalized, first?_before, first?_char_seq_eq_none hc]
  rfl

lemma first?_beforeCapitalized (hc : c.isUpper = true) (cs : List Char) :
    beforeCapitalized.first? (c :: cs) =
      if cs.head?.any Char.isLower then some ⟨[], c :: cs⟩ else none := by
  rw [beforeCapitalized, first?_before, first?_char_seq hc]
  cases cs with
  | nil => rfl
  | cons d t => cases hd : d.isLower <;> simp [first?, ways, hd]

lemma first?_acronym_eq_none (hc : c.isUpper = false) (cs : List Char) :
    acronym.first? (c :: cs) = none :=
  first?_many1_seq_eq_none hc _ cs

lemma first?_acronym (hc : c.isUpper = true) (cs : List Char) :
    acronym.first? (c :: cs) =
      ((acronym.first? cs).or (beforeCapitalized.first? cs)).map (·.after [c]) :=
  first?_many1_seq_cons hc _ cs

/-- A capital in front of a small letter belongs to the next word. -/
lemma first?_acronym_of_head? (hc : c.isUpper = true) (h : cs.head?.any Char.isLower = true) :
    acronym.first? (c :: cs) = none := by
  cases cs with
  | nil => cases h
  | cons d t =>
    have hd : d.isUpper = false := isUpper_eq_false_of_isLower h
    rw [first?_acronym hc, first?_acronym_eq_none hd, first?_beforeCapitalized_eq_none hd]
    rfl

lemma first?_letters_eq_none (hc : p c = false) (cs : List Char) :
    (letters p).first? (c :: cs) = none :=
  first?_many1_seq_eq_none hc _ cs

lemma first?_letters_of_head? (h : cs.head?.any p = false) : (letters p).first? cs = none := by
  cases cs with
  | nil => rfl
  | cons c cs => exact first?_letters_eq_none h cs

lemma first?_letters (hc : p c = true) (cs : List Char) :
    (letters p).first? (c :: cs) =
      (((letters p).first? cs).or (((many1 Char.isDigit).first? cs).or (some ⟨[], cs⟩))).map
        (·.after [c]) := by
  rw [letters, first?_many1_seq_cons hc, first?_many]

/-! ### Matches of the pattern -/

lemma first?_wordPattern_of_not_isUpper (hc : c.isUpper = false) (cs : List Char) :
    wordPattern.first? (c :: cs) =
      ((letters Char.isLower).first? (c :: cs)).or ((many1 Char.isDigit).first? (c :: cs)) := by
  simp only [wordPattern, first?_alt, first?_optional_seq]
  rw [first?_acronym_eq_none hc, first?_char_seq_eq_none hc, first?_letters_eq_none hc]
  rfl

/-- After a capital, small letters are preferred to a run of capitals. -/
lemma first?_wordPattern_of_isUpper (hc : c.isUpper = true) (cs : List Char) :
    wordPattern.first? (c :: cs) = (acronym.first? (c :: cs)).or
      ((((letters Char.isLower).first? cs).map (·.after [c])).or
        ((letters Char.isUpper).first? (c :: cs))) := by
  simp only [wordPattern, first?_alt, first?_optional_seq]
  rw [first?_char_seq hc, first?_letters_eq_none (isLower_eq_false_of_isUpper hc),
    first?_many1_eq_none (isDigit_eq_false_of_isUpper hc), Option.or_none, Option.or_none]

lemma first?_wordPattern_of_isLower (hc : c.isLower = true) (cs : List Char) :
    wordPattern.first? (c :: cs) = (letters Char.isLower).first? (c :: cs) := by
  rw [first?_wordPattern_of_not_isUpper (isUpper_eq_false_of_isLower hc), first?_letters hc]
  simp

lemma first?_wordPattern_of_isDigit (hc : c.isDigit = true) (cs : List Char) :
    wordPattern.first? (c :: cs) = (many1 Char.isDigit).first? (c :: cs) := by
  rw [first?_wordPattern_of_not_isUpper (isUpper_eq_false_of_isDigit hc),
    first?_letters_eq_none (isLower_eq_false_of_isDigit hc), Option.none_or]

/-- There is a match exactly where a letter or a digit stands. -/
lemma isSome_first?_wordPattern (c : Char) (cs : List Char) :
    (wordPattern.first? (c :: cs)).isSome = c.isAlphanum := by
  rw [Char.isAlphanum, Char.isAlpha]
  cases hupper : c.isUpper with
  | true => simp [first?_wordPattern_of_isUpper hupper, first?_letters hupper]
  | false =>
    cases hlower : c.isLower with
    | true => simp [first?_wordPattern_of_isLower hlower, first?_letters hlower]
    | false =>
      rw [first?_wordPattern_of_not_isUpper hupper, first?_letters_eq_none hlower]
      cases hdigit : c.isDigit with
      | true => simp [first?_many1_cons hdigit]
      | false => simp [first?_many1_eq_none hdigit]

/-- Behind a letter, the match goes on with that of a small letter or a digit. -/
lemma first?_or_of_not_isUpper (hc : c.isUpper = false) (cs : List Char) (m : Match) :
    ((letters Char.isLower).first? (c :: cs)).or
        (((many1 Char.isDigit).first? (c :: cs)).or (some m)) =
      if c.isLower || c.isDigit then wordPattern.first? (c :: cs) else some m := by
  have hsome := isSome_first?_wordPattern c cs
  rw [Char.isAlphanum, Char.isAlpha, hc, Bool.false_or] at hsome
  rw [← Option.or_assoc, ← first?_wordPattern_of_not_isUpper hc, ← hsome]
  cases wordPattern.first? (c :: cs) <;> rfl

/-- Behind a capital, the match goes on with that of another capital, unless this is the first
letter of a capitalized word. -/
lemma first?_or_of_isUpper (hc : c.isUpper = true) (cs : List Char) (m : Match) :
    ((acronym.first? (c :: cs)).or (beforeCapitalized.first? (c :: cs))).or
        (((letters Char.isUpper).first? (c :: cs)).or (some m)) =
      if cs.head?.any Char.isLower then some ⟨[], c :: cs⟩ else wordPattern.first? (c :: cs) := by
  have hcapitals : ((letters Char.isUpper).first? (c :: cs)).or (some m) =
      (letters Char.isUpper).first? (c :: cs) := by
    simp [first?_letters hc]
  rw [hcapitals, first?_beforeCapitalized hc]
  split_ifs with hnext
  · rw [first?_acronym_of_head? hc hnext]
    rfl
  · rw [first?_wordPattern_of_isUpper hc, first?_letters_of_head? (Bool.eq_false_iff.mpr hnext),
      Option.or_none]
    rfl

lemma first?_cons_of_isDigit (hc : c.isDigit = true) (cs : List Char) :
    wordPattern.first? (c :: cs) =
      (if joins c cs then wordPattern.first? cs else some ⟨[], cs⟩).map (·.after [c]) := by
  rw [first?_wordPattern_of_isDigit hc, first?_many1_cons hc]
  congr 1
  cases cs with
  | nil => rfl
  | cons d t =>
    simp only [joins, isUpper_eq_false_of_isDigit hc, isLower_eq_false_of_isDigit hc]
    cases hd : d.isDigit with
    | false => simp [first?_many1_eq_none hd]
    | true => simp [first?_wordPattern_of_isDigit hd, first?_many1_cons hd]

lemma first?_cons_of_isLower (hc : c.isLower = true) (cs : List Char) :
    wordPattern.first? (c :: cs) =
      (if joins c cs then wordPattern.first? cs else some ⟨[], cs⟩).map (·.after [c]) := by
  rw [first?_wordPattern_of_isLower hc, first?_letters hc]
  congr 1
  cases cs with
  | nil => rfl
  | cons d t =>
    simp only [joins, isUpper_eq_false_of_isLower hc, hc]
    cases hupper : d.isUpper with
    | false => exact first?_or_of_not_isUpper hupper t _
    | true =>
      have hlower : d.isLower = false := isLower_eq_false_of_isUpper hupper
      have hdigit : d.isDigit = false := isDigit_eq_false_of_isUpper hupper
      rw [first?_letters_eq_none hlower, first?_many1_eq_none hdigit, hlower, hdigit]
      rfl

lemma first?_cons_of_isUpper (hc : c.isUpper = true) (cs : List Char) :
    wordPattern.first? (c :: cs) =
      (if joins c cs then wordPattern.first? cs else some ⟨[], cs⟩).map (·.after [c]) := by
  rw [first?_wordPattern_of_isUpper hc, first?_acronym hc, first?_letters hc, ← Option.map_or,
    ← Option.map_or]
  congr 1
  cases cs with
  | nil => rfl
  | cons d t =>
    simp only [joins, hc]
    cases hupper : d.isUpper with
    | false =>
      rw [first?_acronym_eq_none hupper, first?_beforeCapitalized_eq_none hupper,
        first?_letters_eq_none hupper, Option.none_or, Option.none_or, Option.none_or,
        first?_or_of_not_isUpper hupper]
      simp
    | true =>
      have hlower : d.isLower = false := isLower_eq_false_of_isUpper hupper
      have hdigit : d.isDigit = false := isDigit_eq_false_of_isUpper hupper
      rw [first?_letters_eq_none hlower, first?_many1_eq_none hdigit, Option.none_or,
        Option.none_or, first?_or_of_isUpper hupper, hlower, hdigit]
      cases t.head?.any Char.isLower <;> rfl

/-- The match of a text is one character longer than that of the rest if the character joins the
rest, and holds the character alone if not. -/
lemma first?_wordPattern_cons (hc : c.isAlphanum = true) (cs : List Char) :
    wordPattern.first? (c :: cs) =
      (if joins c cs then wordPattern.first? cs else some ⟨[], cs⟩).map (·.after [c]) := by
  simp only [Char.isAlphanum, Char.isAlpha, Bool.or_eq_true] at hc
  rcases hc with (hupper | hlower) | hdigit
  · exact first?_cons_of_isUpper hupper cs
  · exact first?_cons_of_isLower hlower cs
  · exact first?_cons_of_isDigit hdigit cs

/-! ### Words as matches -/

/-- The match at the start of a text is its first word. -/
lemma words_eq_of_first? (h : wordPattern.first? cs = some m) :
    words cs = m.taken :: words m.rest := by
  induction cs generalizing m with
  | nil => cases h
  | cons c cs ih =>
    have hc : c.isAlphanum = true := by
      rw [← isSome_first?_wordPattern c cs, h, Option.isSome_some]
    rw [first?_wordPattern_cons hc] at h
    cases hjoins : joins c cs with
    | false =>
      rw [hjoins] at h
      cases h
      exact words_cons_of_not_joins hc hjoins
    | true =>
      rw [hjoins, if_pos rfl] at h
      obtain ⟨n, hn, rfl⟩ := Option.map_eq_some_iff.mp h
      simp [words, hc, hjoins, ih hn]

lemma taken_ne_nil_of_first? (h : wordPattern.first? cs = some m) : m.taken ≠ [] := by
  have hmem : m.taken ∈ words cs := words_eq_of_first? h ▸ List.mem_cons_self
  exact (isWordLike_of_mem_words hmem).ne_nil

/-- An induction over the positions of a search, at which there is a match, after which the search
goes on, or a character that belongs to no word. -/
lemma words_induction {motive : List Char → List (List Char) → Prop} (nil : motive [] [])
    (gap : ∀ c cs, c.isAlphanum = false → motive cs (words cs) → motive (c :: cs) (words cs))
    (word : ∀ cs m, wordPattern.first? cs = some m → motive m.rest (words m.rest) →
      motive cs (m.taken :: words m.rest))
    (cs : List Char) : motive cs (words cs) := by
  induction hlength : cs.length using Nat.strong_induction_on generalizing cs with
  | h n ih =>
    subst hlength
    cases cs with
    | nil => exact nil
    | cons c cs =>
      cases hfirst : wordPattern.first? (c :: cs) with
      | none =>
        have hc : c.isAlphanum = false := by
          rw [← isSome_first?_wordPattern c cs, hfirst, Option.isSome_none]
        rw [words_cons_of_not_isAlphanum hc]
        exact gap c cs hc (ih _ (Nat.lt_succ_self _) cs rfl)
      | some m =>
        rw [words_eq_of_first? hfirst]
        have hshorter := length_rest_lt hfirst (taken_ne_nil_of_first? hfirst)
        exact word _ m hfirst (ih _ hshorter m.rest rfl)

/-- The words of a text are the matches of the pattern in it. -/
lemma findAll_wordPattern (cs : List Char) : wordPattern.findAll cs = words cs := by
  induction cs using words_induction with
  | nil => rw [findAll]
  | gap c cs hc ih =>
    have hfirst : wordPattern.first? (c :: cs) = none := by
      simpa [hc] using isSome_first?_wordPattern c cs
    rw [findAll_of_first?_eq_none hfirst, ih]
  | word cs m hfirst ih =>
    rw [findAll_of_first?_eq_some hfirst (taken_ne_nil_of_first? hfirst), ih]

end RegisterMap.Name
