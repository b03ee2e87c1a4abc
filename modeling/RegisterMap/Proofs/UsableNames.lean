import RegisterMap.Accessor.Module
import RegisterMap.Proofs.Name.Style
import RegisterMap.Proofs.NameScope

/-!
# Usable names

A word is a word again in every style, and it is no keyword. All styles end with the last letter or
digit of the last word, so that an underscore at the end is that of a name without letters and
digits, or the one that a keyword was given. A member that gets underscores to avoid a fixed one is
therefore called like no other name in any style.
-/

namespace RegisterMap

namespace Name

variable {c : Char} {w text : List Char} {ws : List (List Char)} {name : String}

/-! ### Keywords -/

lemma getLast?_ne_of_mem_keywords {k : String} (h : k ∈ keywords) :
    k.toList.getLast? ≠ some '_' := by
  have hall : ∀ k ∈ keywords, k.toList.getLast? ≠ some '_' := by decide
  exact hall k h

lemma getLast?_append_underscore (name : String) :
    (name ++ "_").toList.getLast? = some '_' := by
  rw [String.toList_append]
  exact List.getLast?_concat

/-- No usable text is a keyword. -/
lemma usable_not_mem_keywords (text : List Char) : usable text ∉ keywords := by
  obtain ⟨escaped, _, ⟨hkeyword, heq⟩ | ⟨_, heq⟩⟩ := usable_cases text
  · rwa [heq]
  · intro hmem
    apply getLast?_ne_of_mem_keywords hmem
    rw [heq, getLast?_append_underscore]

/-! ### Words made usable -/

lemma isWord_append_underscore (h : isWord text = true) : isWord (text ++ ['_']) = true := by
  cases text with
  | nil => cases h
  | cons c rest =>
    obtain ⟨hc, hrest⟩ := Bool.and_eq_true_iff.mp h
    rw [List.cons_append, isWord, hc, List.all_append, hrest]
    decide

lemma isStart_of_isFollowing (h : isFollowing c = true) (hdigit : Text.isDigit c = false) :
    isStart c = true := by
  rw [isFollowing, Bool.or_eq_true] at h
  rw [isStart, Bool.or_eq_true]
  refine h.imp_left fun halnum => ?_
  rw [isDigit_eq_of_isAlphanum halnum] at hdigit
  simpa [Char.isAlphanum, hdigit] using halnum

/-- A text of letters, digits and underscores is a word when it is made usable. -/
lemma isWord_usable (hne : text ≠ []) (h : ∀ c ∈ text, isFollowing c = true) :
    isWord (usable text).toList = true := by
  have hescaped :
      isWord (if text.head?.any Text.isDigit then '_' :: text else text) = true := by
    obtain ⟨c, rest, rfl⟩ := List.exists_cons_of_ne_nil hne
    obtain ⟨hc, hrest⟩ := List.forall_mem_cons.mp h
    rw [List.head?_cons, Option.any_some]
    cases hdigit : Text.isDigit c with
    | true =>
      rw [if_pos rfl, isWord, Bool.and_eq_true]
      exact ⟨by decide, List.all_eq_true.mpr h⟩
    | false =>
      rw [if_neg Bool.false_ne_true, isWord, Bool.and_eq_true]
      exact ⟨isStart_of_isFollowing hc hdigit, List.all_eq_true.mpr hrest⟩
  obtain ⟨escaped, htext, ⟨_, heq⟩ | ⟨_, heq⟩⟩ := usable_cases text
  · rwa [heq, htext]
  · rw [heq, String.toList_append, htext]
    exact isWord_append_underscore hescaped

/-! ### The ends of styles -/

/-- A text of letters, digits and underscores that ends with a letter or digit. -/
structure EndsWithWord (text : List Char) : Prop where
  isFollowing : ∀ c ∈ text, Name.isFollowing c = true
  getLast : text.getLast?.any Char.isAlphanum = true

lemma isFollowing_of_isAlphanum (h : c.isAlphanum = true) : isFollowing c = true := by
  rw [isFollowing, h, Bool.true_or]

namespace EndsWithWord

lemma of_isAlphanum (hne : w ≠ []) (h : ∀ c ∈ w, c.isAlphanum = true) : EndsWithWord w := by
  refine ⟨fun c hc => isFollowing_of_isAlphanum (h c hc), ?_⟩
  rw [List.getLast?_eq_some_getLast hne]
  exact h _ (List.getLast_mem hne)

lemma ne_nil (h : EndsWithWord text) : text ≠ [] := by
  rintro rfl
  cases h.getLast

lemma getLast?_ne (h : EndsWithWord text) : text.getLast? ≠ some '_' := by
  intro hlast
  have halnum := h.getLast
  rw [hlast] at halnum
  exact absurd halnum (by decide)

lemma append {front : List Char} (hfront : ∀ c ∈ front, Name.isFollowing c = true)
    (h : EndsWithWord text) : EndsWithWord (front ++ text) := by
  refine ⟨List.forall_mem_append.mpr ⟨hfront, h.isFollowing⟩, ?_⟩
  rw [List.getLast?_append_of_ne_nil _ h.ne_nil]
  exact h.getLast

/-- Texts that are joined end as the last one of them does. -/
lemma intercalate {separator : List Char} {pieces : List (List Char)} (hne : pieces ≠ [])
    (hseparator : ∀ c ∈ separator, Name.isFollowing c = true)
    (h : ∀ piece ∈ pieces, EndsWithWord piece) : EndsWithWord (separator.intercalate pieces) := by
  induction pieces with
  | nil => exact absurd rfl hne
  | cons piece pieces ih =>
    obtain ⟨hpiece, hpieces⟩ := List.forall_mem_cons.mp h
    cases pieces with
    | nil => rwa [List.intercalate_singleton]
    | cons next rest =>
      rw [List.intercalate_cons_cons]
      refine append ?_ (ih (by simp) hpieces)
      exact List.forall_mem_append.mpr ⟨hpiece.isFollowing, hseparator⟩

lemma flatten {pieces : List (List Char)} (hne : pieces ≠ [])
    (h : ∀ piece ∈ pieces, EndsWithWord piece) : EndsWithWord pieces.flatten := by
  obtain ⟨front, last, rfl⟩ := (List.eq_nil_or_concat' pieces).resolve_left hne
  obtain ⟨hfront, hlast⟩ := List.forall_mem_append.mp h
  rw [List.flatten_append, List.flatten_singleton]
  refine append (fun c hc => ?_) (hlast last (List.mem_singleton_self last))
  obtain ⟨piece, hpiece, hc⟩ := List.mem_flatten.mp hc
  exact (hfront piece hpiece).isFollowing c hc

end EndsWithWord

/-- A conversion that joins the words of a name so that the text ends with a letter or digit. -/
def IsStyle (convert : String → String) : Prop :=
  ∃ style, convert = restyle style ∧
    ∀ ws, ws ≠ [] → (∀ w ∈ ws, IsWordLike w) → EndsWithWord (style ws)

lemma isStyle_joined {case : Char → Char}
    (hcase : ∀ c : Char, c.isAlphanum = true → (case c).isAlphanum = true) :
    IsStyle (restyle (joined case)) := by
  refine ⟨joined case, rfl, fun ws hne hwords => ?_⟩
  refine EndsWithWord.intercalate (by simpa using hne) (by simp [isFollowing]) fun piece hpiece => ?_
  obtain ⟨w, hw, rfl⟩ := List.mem_map.mp hpiece
  refine .of_isAlphanum (by simpa using (hwords w hw).ne_nil) fun c hc => ?_
  obtain ⟨d, hd, rfl⟩ := List.mem_map.mp hc
  exact hcase d ((hwords w hw).isAlphanum d hd)

lemma isStyle_snake : IsStyle snake := isStyle_joined fun _ => isAlphanum_toLower

lemma isStyle_constant : IsStyle constant := isStyle_joined fun _ => isAlphanum_toUpper

lemma isStyle_pascal : IsStyle pascal := by
  refine ⟨fun ws => (ws.map capitalize).flatten, rfl, fun ws hne hwords => ?_⟩
  refine EndsWithWord.flatten (by simpa using hne) fun piece hpiece => ?_
  obtain ⟨w, hw, rfl⟩ := List.mem_map.mp hpiece
  obtain ⟨hne, halnum, _⟩ := hwords w hw
  obtain ⟨c, rest, rfl⟩ := List.exists_cons_of_ne_nil hne
  obtain ⟨hc, hrest⟩ := List.forall_mem_cons.mp halnum
  refine .of_isAlphanum (by simp [capitalize]) ?_
  rw [capitalize, List.forall_mem_cons, List.forall_mem_map]
  exact ⟨isAlphanum_toUpper hc, fun d hd => isAlphanum_toLower (hrest d hd)⟩

/-! ### Restyled names -/

namespace IsStyle

variable {convert : String → String}

lemma eq_usable_of_words_eq_nil (h : IsStyle convert) (hwords : words name.toList = []) :
    convert name = usable name.toList := by
  obtain ⟨style, rfl, _⟩ := h
  exact restyle_of_words_eq_nil hwords

lemma exists_eq_usable (h : IsStyle convert) (hwords : words name.toList ≠ []) :
    ∃ text, EndsWithWord text ∧ convert name = usable text := by
  obtain ⟨style, rfl, hstyle⟩ := h
  refine ⟨style (words name.toList), ?_, restyle_of_words_ne_nil hwords⟩
  exact hstyle _ hwords fun w hw => isWordLike_of_mem_words hw

/-- A word is a word in every style. -/
lemma isWord (h : IsStyle convert) (hname : Name.isWord name.toList = true) :
    Name.isWord (convert name).toList = true := by
  by_cases hwords : words name.toList = []
  · rw [h.eq_usable_of_words_eq_nil hwords]
    refine isWord_usable ?_ (isFollowing_of_isWord hname)
    intro hnil
    rw [hnil] at hname
    cases hname
  · obtain ⟨text, htext, heq⟩ := h.exists_eq_usable hwords
    rw [heq]
    exact isWord_usable htext.ne_nil htext.isFollowing

lemma not_mem_keywords (h : IsStyle convert) (name : String) : convert name ∉ keywords := by
  by_cases hwords : words name.toList = []
  · rw [h.eq_usable_of_words_eq_nil hwords]
    exact usable_not_mem_keywords _
  · obtain ⟨text, _, heq⟩ := h.exists_eq_usable hwords
    rw [heq]
    exact usable_not_mem_keywords text

/-- A restyled name with letters or digits ends with one of them, if not with the underscore of a
keyword. -/
lemma getLast?_ne_or (h : IsStyle convert) (hwords : words name.toList ≠ []) :
    (convert name).toList.getLast? ≠ some '_' ∨ ∃ k ∈ keywords, convert name = k ++ "_" := by
  obtain ⟨text, htext, heq⟩ := h.exists_eq_usable hwords
  rw [heq]
  obtain ⟨escaped, hescaped, ⟨_, husable⟩ | ⟨hkeyword, husable⟩⟩ := usable_cases text
  · left
    rw [husable, hescaped]
    split_ifs
    · rw [List.getLast?_cons_of_ne_nil htext.ne_nil]
      exact htext.getLast?_ne
    · exact htext.getLast?_ne
  · exact .inr ⟨escaped, hkeyword, husable⟩

/-- A word without letters and digits consists of underscores, in every style. -/
lemma eq_underscore_of_mem (h : IsStyle convert) (hname : Name.isWord name.toList = true)
    (hwords : words name.toList = []) (hc : c ∈ (convert name).toList) : c = '_' := by
  rw [h.eq_usable_of_words_eq_nil hwords] at hc
  rcases mem_usable hc with rfl | hc
  · rfl
  · have hfollowing := isFollowing_of_isWord hname c hc
    exact (isAlphanum_eq_false_iff hfollowing).mp (words_eq_nil_iff.mp hwords c hc)

lemma words_ne_nil (h : IsStyle convert) (hwords : words (convert name).toList ≠ []) :
    words name.toList ≠ [] := by
  intro hnil
  rw [h.eq_usable_of_words_eq_nil hnil, words_usable] at hwords
  exact hwords hnil

end IsStyle

end Name

/-! ### Avoided members -/

namespace Accessor

open Name

variable {convert convert' : String → String} {a b : String}

lemma words_underscored (name : String) (n : Nat) :
    words (underscored name n).toList = words name.toList := by
  induction n with
  | zero => rfl
  | succ n ih =>
    rw [underscored_succ, String.toList_append, ← ih]
    exact words_append_singleton_underscore _

/-- A restyled name with letters or digits and with underscores added at its end is no restyled
name. -/
lemma underscored_ne (h : IsStyle convert) (h' : IsStyle convert')
    (hwords : words (convert a).toList ≠ []) (n : Nat) :
    underscored (convert a) (n + 1) ≠ convert' b := by
  intro heq
  have hb : words b.toList ≠ [] := by
    apply h'.words_ne_nil
    rwa [← heq, words_underscored]
  rw [underscored_succ] at heq
  rcases h'.getLast?_ne_or hb with hlast | ⟨k, hk, hkeyword⟩
  · rw [← heq] at hlast
    exact hlast (getLast?_append_underscore _)
  · -- The underscore is that of a keyword, which the rest of the text would have to be.
    rw [← heq, String.append_left_inj] at hkeyword
    cases n with
    | zero =>
      rw [underscored_zero] at hkeyword
      exact h.not_mem_keywords a (hkeyword ▸ hk)
    | succ n =>
      apply getLast?_ne_of_mem_keywords hk
      rw [← hkeyword, underscored_succ, getLast?_append_underscore]

lemma avoid_ne (h : IsStyle convert) (h' : IsStyle convert') {taken : List String}
    (hwords : ∀ t ∈ taken, words t.toList ≠ []) (hmem : convert a ∈ taken) :
    avoid taken (convert a) ≠ convert' b := by
  obtain ⟨n, heq, hfree, _⟩ := exists_avoid_eq taken (convert a)
  rw [heq]
  cases n with
  | zero => exact absurd hmem hfree
  | succ n => exact underscored_ne h h' (hwords _ hmem) n

lemma isStyle_of_mem (h : convert ∈ [snake, pascal, constant]) : IsStyle convert := by
  simp only [List.mem_cons, List.not_mem_nil, or_false] at h
  rcases h with rfl | rfl | rfl
  · exact isStyle_snake
  · exact isStyle_pascal
  · exact isStyle_constant

/-- A keyword has a small letter, so no constant ends with the underscore of one. -/
lemma constant_ne_append_underscore {k : String} (hk : k ∈ keywords) (name : String) :
    constant name ≠ k ++ "_" := by
  intro heq
  have hsmall : ∀ k ∈ keywords, k.toList.any Char.isLower = true := by decide
  obtain ⟨c, hc, hlower⟩ := List.any_eq_true.mp (hsmall k hk)
  have hmem : c ∈ (constant name).toList := by
    rw [heq, String.toList_append]
    exact List.mem_append_left _ hc
  rw [isLower_of_mem_constant hmem] at hlower
  cases hlower

/-- In every style a word is a word and no keyword. In snake case and as a constant it consists of
underscores or does not end with one, but for a keyword in snake case with the underscore that it
was given. So a member that is given underscores to avoid a fixed method is called like no other
name in any style. -/
theorem styles_usable {name : String} (h : isWord name.toList = true) :
    (∀ convert ∈ [snake, pascal, constant],
      isWord (convert name).toList = true ∧ convert name ∉ keywords) ∧
    ((∀ c ∈ (snake name).toList, c = '_') ∨ (snake name).toList.getLast? ≠ some '_' ∨
      ∃ k ∈ keywords, snake name = k ++ "_") ∧
    ((∀ c ∈ (constant name).toList, c = '_') ∨ (constant name).toList.getLast? ≠ some '_') ∧
    ∀ taken ∈ [FieldNames.valueMethods, proxyMethods, containerMethods], snake name ∈ taken →
      ∀ other, ∀ convert ∈ [snake, pascal, constant], avoid taken (snake name) ≠ convert other := by
  have hfixed : ∀ taken ∈ [FieldNames.valueMethods, proxyMethods, containerMethods],
      ∀ t ∈ taken, words t.toList ≠ [] := by decide
  refine ⟨fun convert hconvert => ?_, ?_, ?_, fun taken htaken hmem other convert hconvert => ?_⟩
  · have hstyle := isStyle_of_mem hconvert
    exact ⟨hstyle.isWord h, hstyle.not_mem_keywords name⟩
  · by_cases hwords : words name.toList = []
    · exact .inl fun c => isStyle_snake.eq_underscore_of_mem h hwords
    · exact .inr (isStyle_snake.getLast?_ne_or hwords)
  · by_cases hwords : words name.toList = []
    · exact .inl fun c => isStyle_constant.eq_underscore_of_mem h hwords
    · right
      apply (isStyle_constant.getLast?_ne_or hwords).resolve_right
      rintro ⟨k, hk, heq⟩
      exact constant_ne_append_underscore hk name heq
  · exact avoid_ne isStyle_snake (isStyle_of_mem hconvert) (hfixed taken htaken) hmem

/-- A name that has to avoid a fixed method. -/
theorem styles_usable_rawBits :
    isWord "rawBits".toList = true ∧ snake "rawBits" ∈ FieldNames.valueMethods ∧
      isWord (pascal "rawBits").toList = true ∧ pascal "rawBits" ∉ keywords ∧
      avoid FieldNames.valueMethods (snake "rawBits") ≠ snake "raw_bits_" := by
  have hword : isWord "rawBits".toList = true := by decide
  have hmem : snake "rawBits" ∈ FieldNames.valueMethods := by decide
  obtain ⟨husable, _, _, havoid⟩ := styles_usable hword
  obtain ⟨hpascal, hkeyword⟩ := husable pascal (by simp)
  exact ⟨hword, hmem, hpascal, hkeyword, havoid _ (by simp) hmem "raw_bits_" snake (by simp)⟩

end Accessor

end RegisterMap
