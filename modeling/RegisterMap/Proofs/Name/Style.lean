import RegisterMap.Name.Basic
import RegisterMap.Name.Style
import RegisterMap.Proofs.Name.Words

/-!
# Names in different styles

A style keeps the words of a name, up to their case, so that a name can go through one style before
it goes through another. Two names therefore agree in snake case exactly when they agree as
constants. Pascal case puts nothing between the words, so that other names agree in it too. The
underscores that keep a name from starting with a digit or from being a keyword change none of its
words. What stands in front of a restyled name depends on its first letter or digit alone.
-/

namespace RegisterMap.Name

variable {a b name : String} {text : List Char} {c : Char}

/-! ### Usable texts -/

/-- Making a text usable puts at most an underscore in front, and one at the end of a keyword. -/
lemma usable_cases (text : List Char) :
    ∃ escaped : String,
      escaped.toList = (if text.head?.any Text.isDigit then '_' :: text else text) ∧
      (escaped ∉ keywords ∧ usable text = escaped ∨
        escaped ∈ keywords ∧ usable text = escaped ++ "_") := by
  refine ⟨String.ofList (if text.head?.any Text.isDigit then '_' :: text else text),
    String.toList_ofList, ?_⟩
  unfold usable
  by_cases hkeyword :
      String.ofList (if text.head?.any Text.isDigit then '_' :: text else text) ∈ keywords
  · exact .inr ⟨hkeyword, if_pos hkeyword⟩
  · exact .inl ⟨hkeyword, if_neg hkeyword⟩

lemma words_usable (text : List Char) : words (usable text).toList = words text := by
  obtain ⟨escaped, htext, husable⟩ := usable_cases text
  have hescaped : words escaped.toList = words text := by
    rw [htext]
    split_ifs
    · exact words_cons_of_not_isAlphanum isAlphanum_eq_false_of_underscore
    · rfl
  rcases husable with ⟨_, heq⟩ | ⟨_, heq⟩
  · rw [heq, hescaped]
  · rw [heq, String.toList_append, ← hescaped]
    exact words_append_singleton_underscore _

lemma words_ne_nil_of_mem_keywords (h : name ∈ keywords) : words name.toList ≠ [] := by
  have hall : ∀ k ∈ keywords, words k.toList ≠ [] := by decide
  exact hall name h

lemma isDigit_underscore : Text.isDigit '_' = false := by decide

/-- What makes a text without words usable is at most an underscore before it. -/
lemma toList_usable_of_words_eq_nil (h : words text = []) :
    (usable text).toList = if text.head?.any Text.isDigit then '_' :: text else text := by
  obtain ⟨escaped, htext, ⟨_, heq⟩ | ⟨hkeyword, heq⟩⟩ := usable_cases text
  · rw [heq, htext]
  · have hwords : words escaped.toList = [] := by
      rw [← h, ← words_usable text, heq, String.toList_append]
      exact (words_append_singleton_underscore _).symm
    exact absurd hwords (words_ne_nil_of_mem_keywords hkeyword)

lemma usable_usable_of_words_eq_nil (h : words text = []) :
    usable (usable text).toList = usable text := by
  have hwords : words (usable text).toList = [] := (words_usable text).trans h
  rw [← String.toList_inj, toList_usable_of_words_eq_nil hwords, toList_usable_of_words_eq_nil h]
  split_ifs <;> simp_all [isDigit_underscore]

/-! ### Restyled names -/

section Restyle

variable {style style' : List (List Char) → List Char}

lemma restyle_of_words_eq_nil (h : words name.toList = []) :
    restyle style name = usable name.toList := by
  simp [restyle, h]

lemma restyle_of_words_ne_nil (h : words name.toList ≠ []) :
    restyle style name = usable (style (words name.toList)) := by
  cases hwords : words name.toList with
  | nil => exact absurd hwords h
  | cons w ws => simp [restyle, hwords]

/-- A second style that is the same on the words that a first one leaves undoes the first. -/
lemma restyle_restyle {f : List Char → List Char}
    (hwords : words (restyle style name).toList = (words name.toList).map f)
    (hstyle : style' ((words name.toList).map f) = style' (words name.toList)) :
    restyle style' (restyle style name) = restyle style' name := by
  by_cases h : words name.toList = []
  · rw [restyle_of_words_eq_nil h, restyle_of_words_eq_nil h, restyle_of_words_eq_nil]
    · exact usable_usable_of_words_eq_nil h
    · rw [words_usable, h]
  · have hrestyled : words (restyle style name).toList ≠ [] := by simpa [hwords] using h
    rw [restyle_of_words_ne_nil hrestyled, hwords, hstyle, ← restyle_of_words_ne_nil h]

end Restyle

/-! ### Snake case and constants -/

/-- The words of a name in one case, joined by underscores. -/
def joined (case : Char → Char) (ws : List (List Char)) : List Char :=
  ['_'].intercalate (ws.map (·.map case))

lemma constant_eq_restyle (name : String) :
    constant name = restyle (joined Char.toUpper) name := rfl

lemma joined_map (case case' : Char → Char) (h : ∀ c, case' (case c) = case' c)
    (ws : List (List Char)) : joined case' (ws.map (·.map case)) = joined case' ws := by
  simp [joined, Function.comp_def, h]

/-- The words of a name in one case are those of the name. -/
lemma words_restyle_joined {case : Char → Char}
    (h : ∀ w ∈ words name.toList, words (w.map case) = [w.map case]) :
    words (restyle (joined case) name).toList = (words name.toList).map (·.map case) := by
  by_cases hwords : words name.toList = []
  · rw [restyle_of_words_eq_nil hwords, words_usable, hwords, List.map_nil]
  · rw [restyle_of_words_ne_nil hwords, words_usable]
    exact words_intercalate (by simpa using h)

lemma words_snake (name : String) :
    words (snake name).toList = (words name.toList).map (·.map Char.toLower) :=
  words_restyle_joined fun _ => words_map_toLower

lemma words_constant (name : String) :
    words (constant name).toList = (words name.toList).map (·.map Char.toUpper) :=
  words_restyle_joined fun _ => words_map_toUpper

@[simp] lemma snake_snake (name : String) : snake (snake name) = snake name :=
  restyle_restyle (words_snake name) (joined_map _ _ (by simp) _)

@[simp] lemma constant_snake (name : String) : constant (snake name) = constant name :=
  restyle_restyle (words_snake name) (joined_map _ _ (by simp) _)

@[simp] lemma snake_constant (name : String) : snake (constant name) = snake name :=
  restyle_restyle (words_constant name) (joined_map _ _ (by simp) _)

@[simp] lemma constant_constant (name : String) : constant (constant name) = constant name :=
  restyle_restyle (words_constant name) (joined_map _ _ (by simp) _)

/-- Names agree in snake case exactly when they agree as constants. -/
lemma snake_eq_snake_iff : snake a = snake b ↔ constant a = constant b := by
  constructor <;> intro h
  · rw [← constant_snake a, h, constant_snake]
  · rw [← snake_constant a, h, snake_constant]

/-! ### Pascal case -/

@[simp] lemma capitalize_map_toLower (w : List Char) :
    capitalize (w.map Char.toLower) = capitalize w := by
  cases w with
  | nil => rfl
  | cons c rest => simp [capitalize]

@[simp] lemma capitalize_map_toUpper (w : List Char) :
    capitalize (w.map Char.toUpper) = capitalize w := by
  cases w with
  | nil => rfl
  | cons c rest => simp [capitalize]

@[simp] lemma pascal_snake (name : String) : pascal (snake name) = pascal name :=
  restyle_restyle (words_snake name) (by simp [Function.comp_def])

@[simp] lemma pascal_constant (name : String) : pascal (constant name) = pascal name :=
  restyle_restyle (words_constant name) (by simp [Function.comp_def])

/-- Names that agree in snake case agree in pascal case. -/
lemma pascal_eq_pascal_of_snake_eq (h : snake a = snake b) : pascal a = pascal b := by
  rw [← pascal_snake a, h, pascal_snake]

/-- What a name is in a style can be told from what it is in snake case, and from what it is as a
constant. So two names agree in snake case exactly when they agree as constants, and then they agree
in pascal case. This holds of all texts, and so of those that are accepted as names. -/
theorem styles_cohere :
    (∀ name, (snake (snake name) = snake name ∧ snake (constant name) = snake name) ∧
      (constant (constant name) = constant name ∧ constant (snake name) = constant name) ∧
      pascal (snake name) = pascal name ∧ pascal (constant name) = pascal name) ∧
    ∀ a b, (snake a = snake b ↔ constant a = constant b) ∧
      (snake a = snake b → pascal a = pascal b) := by
  constructor
  · intro name
    exact ⟨⟨snake_snake name, snake_constant name⟩, ⟨constant_constant name, constant_snake name⟩,
      pascal_snake name, pascal_constant name⟩
  · intro a b
    exact ⟨snake_eq_snake_iff, pascal_eq_pascal_of_snake_eq⟩

/-- Two spellings of one name. -/
theorem styles_cohere_irqClear :
    snake "IrqClear" = snake "IRQ_CLEAR" ∧ constant "IrqClear" = constant "IRQ_CLEAR" ∧
      pascal "IrqClear" = pascal "IRQ_CLEAR" := by
  have hsnake : snake "IrqClear" = snake "IRQ_CLEAR" := by decide
  obtain ⟨hiff, hpascal⟩ := styles_cohere.2 "IrqClear" "IRQ_CLEAR"
  exact ⟨hsnake, hiff.mp hsnake, hpascal hsnake⟩

/-! ### Texts that are no names in a style -/

/-- A text that snake case changes is no name in snake case. -/
lemma snake_ne (h : snake b ≠ b) : snake a ≠ b := by
  rintro rfl
  exact h (snake_snake a)

/-- A text that would be changed as a constant is no constant. -/
lemma constant_ne (h : constant b ≠ b) : constant a ≠ b := by
  rintro rfl
  exact h (constant_constant a)

/-! ### Characters -/

lemma mem_usable (h : c ∈ (usable text).toList) : c = '_' ∨ c ∈ text := by
  obtain ⟨escaped, htext, husable⟩ := usable_cases text
  have hescaped (hc : c ∈ escaped.toList) : c = '_' ∨ c ∈ text := by
    rw [htext] at hc
    split_ifs at hc
    · exact List.mem_cons.mp hc
    · exact .inr hc
  rcases husable with ⟨_, heq⟩ | ⟨_, heq⟩
  · rw [heq] at h
    exact hescaped h
  · rw [heq, String.toList_append] at h
    rcases List.mem_append.mp h with h | h
    · exact hescaped h
    · exact .inl (List.mem_singleton.mp h)

lemma mem_joined {case : Char → Char} {ws : List (List Char)} (h : c ∈ joined case ws) :
    c = '_' ∨ ∃ d, c = case d := by
  match ws with
  | [] => cases h
  | [w] =>
    obtain ⟨d, _, rfl⟩ : ∃ d ∈ w, case d = c := by simpa [joined] using h
    exact .inr ⟨d, rfl⟩
  | w :: v :: rest =>
    rw [joined, List.map_cons, List.map_cons, List.intercalate_cons_cons, List.append_assoc,
      List.mem_append, List.singleton_append, List.mem_cons, ← List.map_cons] at h
    rcases h with h | rfl | h
    · obtain ⟨d, _, rfl⟩ := List.mem_map.mp h
      exact .inr ⟨d, rfl⟩
    · exact .inl rfl
    · exact mem_joined h

lemma isLower_of_mem_constant (h : c ∈ (constant name).toList) : c.isLower = false := by
  have hunderscore : '_'.isLower = false := by decide
  by_cases hwords : words name.toList = []
  · rw [constant, restyle_of_words_eq_nil hwords] at h
    rcases mem_usable h with rfl | h
    · exact hunderscore
    · have := words_eq_nil_iff.mp hwords c h
      simp_all [Char.isAlphanum, Char.isAlpha]
  · rw [constant_eq_restyle, restyle_of_words_ne_nil hwords] at h
    rcases mem_usable h with rfl | h
    · exact hunderscore
    · rcases mem_joined h with rfl | ⟨d, rfl⟩
      · exact hunderscore
      · simp

/-! ### First characters -/

lemma isFollowing_of_isStart (h : isStart c = true) : isFollowing c = true := by
  simp only [isStart, isFollowing, Char.isAlphanum, Bool.or_eq_true] at h ⊢
  exact h.imp_left .inl

/-- All characters of a word may follow in a name. -/
lemma isFollowing_of_isWord (h : isWord text = true) : ∀ c ∈ text, isFollowing c = true := by
  cases text with
  | nil => cases h
  | cons first rest =>
    obtain ⟨hfirst, hrest⟩ := Bool.and_eq_true_iff.mp h
    exact List.forall_mem_cons.mpr ⟨isFollowing_of_isStart hfirst, List.all_eq_true.mp hrest⟩

/-- In a name, only underscores are neither letters nor digits. -/
lemma isAlphanum_eq_false_iff (h : isFollowing c = true) : c.isAlphanum = false ↔ c = '_' := by
  constructor
  · intro hc
    rw [isFollowing, hc, Bool.false_or] at h
    exact beq_iff_eq.mp h
  · rintro rfl
    exact isAlphanum_eq_false_of_underscore

lemma toNat_bounds_of_isAlphanum (h : c.isAlphanum = true) : 0x30 ≤ c.toNat ∧ c.toNat ≤ 0x7a := by
  simp only [Char.isAlphanum, Char.isAlpha, Char.isUpper, Char.isLower, Char.isDigit,
    Bool.or_eq_true, Bool.and_eq_true, decide_eq_true_eq, UInt32.le_iff_toNat_le] at h
  change ((0x41 ≤ c.toNat ∧ c.toNat ≤ 0x5a) ∨ 0x61 ≤ c.toNat ∧ c.toNat ≤ 0x7a) ∨
    0x30 ≤ c.toNat ∧ c.toNat ≤ 0x39 at h
  omega

/-- Of the digits of Unicode, only those from zero to nine are in ASCII. -/
lemma isDigit_eq_of_isAlphanum (h : c.isAlphanum = true) : Text.isDigit c = c.isDigit := by
  have hbounds := toNat_bounds_of_isAlphanum h
  have hzeros : ∀ first ∈ Text.decimalZeros, first = 48 ∨ 128 ≤ first := by decide
  have hothers : ∀ interval ∈ Text.otherDigits, 128 ≤ interval.1 := by decide
  have hother : Text.otherDigits.contains c = false := by
    rw [Text.CodePoints.contains, List.any_eq_false]
    intro interval hinterval
    have := hothers interval hinterval
    simp
    omega
  have hdigit : c.isDigit = true ↔ 48 ≤ c.toNat ∧ c.toNat ≤ 57 := by
    simp [Char.isDigit, UInt32.le_iff_toNat_le]
  rw [Text.isDigit, hother, Bool.or_false, Text.isDecimal, Text.decimalValue?, Option.isSome_map,
    Bool.eq_iff_iff, hdigit, List.find?_isSome]
  constructor
  · rintro ⟨first, hfirst, hrange⟩
    have := hzeros first hfirst
    simp at hrange
    omega
  · intro hrange
    exact ⟨48, by decide, by simpa using hrange⟩

lemma head?_usable (c : Char) (rest : List Char) :
    (usable (c :: rest)).toList.head? = some (if Text.isDigit c then '_' else c) := by
  obtain ⟨escaped, htext, husable⟩ := usable_cases (c :: rest)
  have hhead : escaped.toList.head? = some (if Text.isDigit c then '_' else c) := by
    rw [htext, List.head?_cons, Option.any_some]
    split_ifs <;> rfl
  rcases husable with ⟨_, heq⟩ | ⟨_, heq⟩
  · rw [heq, hhead]
  · rw [heq, String.toList_append, List.head?_append, hhead, Option.some_or]

/-- A name of which the first letter or digit is a letter. -/
def LeadsWithLetter (name : String) : Prop :=
  (name.toList.find? Char.isAlphanum).any Char.isAlpha = true

instance (name : String) : Decidable (LeadsWithLetter name) :=
  inferInstanceAs (Decidable (_ = true))

lemma not_leadsWithLetter_of_words_eq_nil (h : words name.toList = []) : ¬LeadsWithLetter name := by
  have hnone : name.toList.find? Char.isAlphanum = none :=
    List.find?_eq_none.mpr fun c hc => by simp [words_eq_nil_iff.mp h c hc]
  simp [LeadsWithLetter, hnone]

/-- The first word of a name starts with its first letter or digit. -/
lemma exists_words_eq_cons (h : words name.toList ≠ []) :
    ∃ c w ws, words name.toList = (c :: w) :: ws ∧ c.isAlphanum = true ∧
      (LeadsWithLetter name ↔ c.isAlpha = true) := by
  obtain ⟨word, ws, hwords⟩ := List.exists_cons_of_ne_nil h
  obtain ⟨hne, halnum, _⟩ : IsWordLike word := isWordLike_of_mem_words (hwords ▸ List.mem_cons_self)
  obtain ⟨c, w, rfl⟩ := List.exists_cons_of_ne_nil hne
  refine ⟨c, w, ws, hwords, halnum c List.mem_cons_self, ?_⟩
  have hflatten := flatten_words name.toList
  rw [hwords, List.flatten_cons, List.cons_append] at hflatten
  rw [LeadsWithLetter, ← List.head?_filter, ← hflatten]
  simp

/-- A style that starts with a capital keeps the first letter of a name in front, and there is an
underscore in front of a name that does not lead with a letter. -/
lemma exists_head?_restyle {style : List (List Char) → List Char}
    (hstyle : ∀ c w ws, (style ((c :: w) :: ws)).head? = some c.toUpper)
    (hname : name.toList.head?.any isStart = true) :
    ∃ c, (restyle style name).toList.head? = some c ∧
      (c.isUpper = true ∧ LeadsWithLetter name ∨ c = '_' ∧ ¬LeadsWithLetter name) := by
  by_cases hwords : words name.toList = []
  · refine ⟨'_', ?_, .inr ⟨rfl, not_leadsWithLetter_of_words_eq_nil hwords⟩⟩
    rw [restyle_of_words_eq_nil hwords]
    cases hlist : name.toList with
    | nil => simp [hlist] at hname
    | cons c rest =>
      have hc : c.isAlphanum = false := words_eq_nil_iff.mp hwords c (by simp [hlist])
      have hunderscore : c = '_' := by simp_all [isStart, Char.isAlphanum]
      rw [head?_usable, hunderscore, isDigit_underscore]
      rfl
  · obtain ⟨c, w, ws, heq, halnum, hleads⟩ := exists_words_eq_cons hwords
    obtain ⟨rest, hrest⟩ : ∃ rest, style ((c :: w) :: ws) = c.toUpper :: rest :=
      List.head?_eq_some_iff.mp (hstyle c w ws)
    have hupper : c.toUpper.isAlphanum = true := isAlphanum_toUpper halnum
    rw [restyle_of_words_ne_nil hwords, heq, hrest, head?_usable, isDigit_eq_of_isAlphanum hupper,
      isDigit_toUpper, hleads]
    cases hdigit : c.isDigit with
    | true => exact ⟨'_', rfl, .inr ⟨rfl, by simp [not_isAlpha_of_isDigit hdigit]⟩⟩
    | false =>
      have halpha : c.isAlpha = true := by simpa [Char.isAlphanum, hdigit] using halnum
      exact ⟨c.toUpper, rfl, .inl ⟨by simpa using halpha, halpha⟩⟩

lemma exists_head?_pascal (hname : name.toList.head?.any isStart = true) :
    ∃ c, (pascal name).toList.head? = some c ∧
      (c.isUpper = true ∧ LeadsWithLetter name ∨ c = '_' ∧ ¬LeadsWithLetter name) :=
  exists_head?_restyle (fun _ _ _ => rfl) hname

lemma exists_head?_constant (hname : name.toList.head?.any isStart = true) :
    ∃ c, (constant name).toList.head? = some c ∧
      (c.isUpper = true ∧ LeadsWithLetter name ∨ c = '_' ∧ ¬LeadsWithLetter name) :=
  exists_head?_restyle (fun _ _ ws => by cases ws <;> rfl) hname

lemma isStart_head?_of_isWord {cs : List Char} (h : isWord cs = true) :
    cs.head?.any isStart = true := by
  cases cs with
  | nil => cases h
  | cons c rest => simpa using (Bool.and_eq_true_iff.mp h).1

lemma isStart_head?_of_isIdentifier (h : isIdentifier name = true) :
    name.toList.head?.any isStart = true := by
  have hword := isStart_head?_of_isWord h
  rcases Text.eq_beforeFinalBreak_or name.toList with hname | hname
  · rwa [← hname] at hword
  · rw [hname]
    cases hlist : Text.beforeFinalBreak name.toList with
    | nil => simp [hlist] at hword
    | cons c rest => simpa [hlist] using hword

end RegisterMap.Name
