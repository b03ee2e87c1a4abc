import Mathlib
import RegisterMap.Name.Words

/-!
# Words and joined words

The words of a name hold its letters and digits, in order and nothing else. Inside a word no letter
follows a digit, and this is all that is needed for the word to stay one when its letters are made
small or made capitals. Underscores keep words apart, so words that were joined by underscores in
one case are found again.
-/

namespace RegisterMap.Name

variable {c d : Char} {cs rest : List Char} {w : List Char}

/-! ### What words hold -/

lemma isAlphanum_eq_false_of_underscore : '_'.isAlphanum = false := by decide

lemma not_isAlpha_of_isDigit (h : c.isDigit = true) : c.isAlpha = false := by
  simp only [Char.isDigit, Char.isAlpha, Char.isUpper, Char.isLower, Bool.and_eq_true,
    decide_eq_true_eq, UInt32.le_iff_toNat_le, ge_iff_le, Bool.or_eq_false_iff,
    Bool.and_eq_false_iff, decide_eq_false_iff_not] at h ⊢
  simp at h ⊢
  omega

lemma exists_of_joins (h : joins c cs = true) :
    ∃ d rest, cs = d :: rest ∧ d.isAlphanum = true ∧ (c.isAlpha = true ∨ d.isDigit = true) := by
  cases cs with
  | nil => cases h
  | cons d rest =>
    refine ⟨d, rest, rfl, ?_⟩
    simp only [joins] at h
    simp only [Char.isAlphanum, Char.isAlpha]
    split_ifs at h with hupper hlower
    · simp_all
      tauto
    · simp_all
      tauto
    · simp_all

lemma words_cons_of_isAlphanum (h : c.isAlphanum = true) (rest : List Char) :
    ∃ w ws, words (c :: rest) = (c :: w) :: ws := by
  simp only [words, h, Bool.not_true, Bool.false_eq_true, if_false]
  split_ifs
  · cases words rest <;> simp
  · simp

lemma words_cons_of_joins (hc : c.isAlphanum = true) (h : joins c rest = true) :
    ∃ w ws, words rest = w :: ws ∧ words (c :: rest) = (c :: w) :: ws ∧
      ∃ d t, w = d :: t ∧ (c.isAlpha = true ∨ d.isDigit = true) := by
  obtain ⟨d, t, rfl, hd, hcohere⟩ := exists_of_joins h
  obtain ⟨w, ws, hwords⟩ := words_cons_of_isAlphanum hd t
  refine ⟨d :: w, ws, hwords, ?_, d, w, rfl, hcohere⟩
  rw [words, hwords]
  simp [hc, h]

lemma words_cons_of_not_joins (hc : c.isAlphanum = true) (h : joins c rest = false) :
    words (c :: rest) = [c] :: words rest := by
  simp [words, hc, h]

lemma words_cons_of_not_isAlphanum (hc : c.isAlphanum = false) :
    words (c :: rest) = words rest := by
  simp [words, hc]

/-- The words of a name hold its letters and digits in order, and nothing else. -/
lemma flatten_words (cs : List Char) : (words cs).flatten = cs.filter Char.isAlphanum := by
  induction cs with
  | nil => rfl
  | cons c rest ih =>
    cases hc : c.isAlphanum with
    | false => rw [words_cons_of_not_isAlphanum hc, ih, List.filter_cons_of_neg (by simp [hc])]
    | true =>
      rw [List.filter_cons_of_pos hc, ← ih]
      cases h : joins c rest with
      | false => simp [words_cons_of_not_joins hc h]
      | true =>
        obtain ⟨w, ws, hrest, hwords, _⟩ := words_cons_of_joins hc h
        simp [hrest, hwords]

lemma words_eq_nil_iff : words cs = [] ↔ ∀ c ∈ cs, c.isAlphanum = false := by
  constructor
  · intro h
    have hflat := flatten_words cs
    rw [h, List.flatten_nil, eq_comm, List.filter_eq_nil_iff] at hflat
    simpa using hflat
  · intro h
    induction cs with
    | nil => rfl
    | cons c rest ih =>
      rw [words_cons_of_not_isAlphanum (h c (by simp)), ih fun d hd => h d (by simp [hd])]

/-- A word is not empty, it holds letters and digits only, and no letter in it follows a digit. -/
structure IsWordLike (w : List Char) : Prop where
  ne_nil : w ≠ []
  isAlphanum : ∀ c ∈ w, c.isAlphanum = true
  chain : w.IsChain fun c d => c.isAlpha = true ∨ d.isDigit = true

lemma isWordLike_of_mem_words (h : w ∈ words cs) : IsWordLike w := by
  induction cs generalizing w with
  | nil => cases h
  | cons c rest ih =>
    cases hc : c.isAlphanum with
    | false => exact ih (words_cons_of_not_isAlphanum hc ▸ h)
    | true =>
      cases hjoins : joins c rest with
      | false =>
        rw [words_cons_of_not_joins hc hjoins] at h
        rcases List.mem_cons.mp h with rfl | h
        · exact ⟨by simp, by simpa using hc, List.isChain_singleton c⟩
        · exact ih h
      | true =>
        obtain ⟨v, ws, hrest, hwords, d, t, rfl, hcohere⟩ := words_cons_of_joins hc hjoins
        rw [hwords] at h
        rw [hrest] at ih
        rcases List.mem_cons.mp h with rfl | h
        · obtain ⟨_, halnum, hchain⟩ := ih List.mem_cons_self
          exact ⟨by simp, List.forall_mem_cons.mpr ⟨hc, halnum⟩,
            List.isChain_cons_cons.mpr ⟨hcohere, hchain⟩⟩
        · exact ih (List.mem_cons_of_mem _ h)

/-! ### Words in one case -/

lemma isDigit_toLower (c : Char) : c.toLower.isDigit = c.isDigit := by
  cases h : c.isUpper with
  | false => rw [Char.toLower_eq_of_not_isUpper (by simp [h])]
  | true =>
    have hlower : c.toLower.isAlpha = true := by simp [Char.isAlpha, h]
    have halpha : c.isAlpha = true := by simp [Char.isAlpha, h]
    rw [Bool.eq_iff_iff]
    constructor <;> intro hdigit
    · simp [not_isAlpha_of_isDigit hdigit] at hlower
    · simp [not_isAlpha_of_isDigit hdigit] at halpha

lemma isDigit_toUpper (c : Char) : c.toUpper.isDigit = c.isDigit := by
  rw [← isDigit_toLower, Char.toLower_toUpper_eq_toLower, isDigit_toLower]

lemma isAlphanum_toLower (h : c.isAlphanum = true) : c.toLower.isAlphanum = true := by
  simpa [Char.isAlphanum, isDigit_toLower] using h

lemma isAlphanum_toUpper (h : c.isAlphanum = true) : c.toUpper.isAlphanum = true := by
  simpa [Char.isAlphanum, isDigit_toUpper] using h

namespace IsWordLike

lemma map_toLower (h : IsWordLike w) : IsWordLike (w.map Char.toLower) := by
  refine ⟨by simpa using h.ne_nil, ?_, ?_⟩
  · simpa [Char.isAlphanum, isDigit_toLower] using h.isAlphanum
  · simpa [List.isChain_map, isDigit_toLower] using h.chain

lemma map_toUpper (h : IsWordLike w) : IsWordLike (w.map Char.toUpper) := by
  refine ⟨by simpa using h.ne_nil, ?_, ?_⟩
  · simpa [Char.isAlphanum, isDigit_toUpper] using h.isAlphanum
  · simpa [List.isChain_map, isDigit_toUpper] using h.chain

/-- In one case, every character of a word joins the next. -/
lemma words_eq_singleton (h : IsWordLike w)
    (hcase : (∀ c ∈ w, c.isUpper = false) ∨ ∀ c ∈ w, c.isLower = false) : words w = [w] := by
  obtain ⟨hne, halnum, hchain⟩ := h
  induction w with
  | nil => exact absurd rfl hne
  | cons c rest ih =>
    have hc : c.isAlphanum = true := halnum c List.mem_cons_self
    cases rest with
    | nil => rw [words_cons_of_not_joins hc rfl, words]
    | cons d t =>
      obtain ⟨hcohere, hchain⟩ := List.isChain_cons_cons.mp hchain
      have hjoins : joins c (d :: t) = true := by
        have hd : d.isAlphanum = true := halnum d (by simp)
        simp only [Char.isAlphanum, Char.isAlpha] at hc hd hcohere
        rcases hcase with hcase | hcase
        · have hcu := hcase c (by simp)
          have hdu := hcase d (by simp)
          simp only [joins, hcu, hdu, Bool.false_eq_true, if_false] at *
          split_ifs <;> simp_all
        · have hcl := hcase c (by simp)
          have hdl := hcase d (by simp)
          have htl : t.head?.any Char.isLower = false := by
            cases t with
            | nil => rfl
            | cons e _ => simpa using hcase e (by simp)
          simp only [joins, hcl, hdl, htl, Bool.false_eq_true, if_false] at *
          split_ifs <;> simp_all
          tauto
      have hrest : words (d :: t) = [d :: t] := by
        refine ih ?_ (by simp) (fun e he => halnum e (by simp [he])) hchain
        exact hcase.imp (fun h e he => h e (by simp [he])) fun h e he => h e (by simp [he])
      rw [words, hrest]
      simp [hc, hjoins]

end IsWordLike

lemma words_map_toLower (h : w ∈ words cs) : words (w.map Char.toLower) = [w.map Char.toLower] :=
  (isWordLike_of_mem_words h).map_toLower.words_eq_singleton (.inl (by simp))

lemma words_map_toUpper (h : w ∈ words cs) : words (w.map Char.toUpper) = [w.map Char.toUpper] :=
  (isWordLike_of_mem_words h).map_toUpper.words_eq_singleton (.inr (by simp))

/-! ### Joined words -/

lemma joins_append_underscore (c : Char) (cs rest : List Char) :
    joins c (cs ++ '_' :: rest) = joins c cs := by
  match cs with
  | [] =>
    simp only [joins, List.nil_append]
    split_ifs <;> simp
  | [d] => simp [joins]
  | d :: e :: t => rfl

/-- An underscore keeps the words before it from those after it. -/
lemma words_append_underscore (cs rest : List Char) :
    words (cs ++ '_' :: rest) = words cs ++ words rest := by
  induction cs with
  | nil => exact words_cons_of_not_isAlphanum isAlphanum_eq_false_of_underscore
  | cons c t ih =>
    rw [List.cons_append]
    cases hc : c.isAlphanum with
    | false => rw [words_cons_of_not_isAlphanum hc, words_cons_of_not_isAlphanum hc, ih]
    | true =>
      have hjoins := joins_append_underscore c t rest
      cases h : joins c t with
      | false =>
        rw [words_cons_of_not_joins hc h, words_cons_of_not_joins hc (hjoins.trans h), ih,
          List.cons_append]
      | true =>
        obtain ⟨w, ws, ht, hwords, _⟩ := words_cons_of_joins hc h
        obtain ⟨v, vs, hrest, hwords', _⟩ := words_cons_of_joins hc (hjoins.trans h)
        rw [ih, ht, List.cons_append, List.cons_eq_cons] at hrest
        rw [hwords, hwords', ← hrest.1, ← hrest.2, List.cons_append]

lemma words_append_singleton_underscore (cs : List Char) : words (cs ++ ['_']) = words cs := by
  rw [words_append_underscore, words, List.append_nil]

/-- Words that are joined by underscores are found again. -/
lemma words_intercalate {ws : List (List Char)} (h : ∀ w ∈ ws, words w = [w]) :
    words (['_'].intercalate ws) = ws := by
  match ws with
  | [] => rfl
  | [w] => rw [List.intercalate_singleton, h w (by simp)]
  | w :: v :: rest =>
    rw [List.intercalate_cons_cons, List.append_assoc, List.singleton_append,
      words_append_underscore, h w (by simp), words_intercalate fun u hu => h u (by simp [hu]),
      List.singleton_append]

end RegisterMap.Name
