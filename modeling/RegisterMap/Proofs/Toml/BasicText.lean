import Mathlib.Tactic.SplitIfs
import RegisterMap.Proofs.Toml.Text

/-!
# Texts between double quotes

The grammar of texts on one line: a character that is plain stands for itself, unless it is a quote
or a backslash, and each backslash starts an escape. Texts are read by this grammar. What is written
for a text follows it if all characters of the text can be written, and only then, and it has no
other value.
-/

namespace RegisterMap.Toml

variable {text code value rest : List Char}

/-! ### The grammar -/

/-- What comes after the backslash of an escape for a character. -/
inductive Escape : List Char → Char → Prop where
  | letter {mark c : Char} (h : escapedChar? mark = some c) : Escape [mark] c
  | short {digits : List Char} {c : Char} (hlength : digits.length = 4)
      (h : codePoint? digits = some c) : Escape ('u' :: digits) c
  | long {digits : List Char} {c : Char} (hlength : digits.length = 8)
      (h : codePoint? digits = some c) : Escape ('U' :: digits) c

/-- What stands between double quotes for a text. -/
inductive BasicText : List Char → List Char → Prop where
  | nil : BasicText [] []
  | plain {c : Char} {code value : List Char} (hplain : isPlain c = true) (hquote : c ≠ '"')
      (hbackslash : c ≠ '\\') (h : BasicText code value) : BasicText (c :: code) (c :: value)
  | escape {mark code value : List Char} {c : Char} (hmark : Escape mark c)
      (h : BasicText code value) : BasicText ('\\' :: (mark ++ code)) (c :: value)

/-- Whether a text in double quotes has a value. -/
def IsBasicString (text value : List Char) : Prop :=
  ∃ code, text = '"' :: (code ++ ['"']) ∧ BasicText code value

/-! ### Reading by the grammar -/

lemma exists_escape_of_readEscape {c : Char}
    {after : { rest : List Char // rest.length < text.length }}
    (h : readEscape text = some (c, after)) : ∃ mark, text = mark ++ after.val ∧ Escape mark c := by
  unfold readEscape at h
  split at h
  next a b d e rest =>
    obtain ⟨_, hc, heq⟩ := Option.map_eq_some_iff.mp h
    cases heq
    exact ⟨['u', a, b, d, e], rfl, .short rfl hc⟩
  next a b d e f g i j rest =>
    obtain ⟨_, hc, heq⟩ := Option.map_eq_some_iff.mp h
    cases heq
    exact ⟨['U', a, b, d, e, f, g, i, j], rfl, .long rfl hc⟩
  next mark rest _ _ =>
    obtain ⟨_, hc, heq⟩ := Option.map_eq_some_iff.mp h
    cases heq
    exact ⟨[mark], rfl, .letter hc⟩
  next => cases h

lemma readEscape_append {mark : List Char} {c : Char} (h : Escape mark c) (rest : List Char) :
    ∃ hlt, readEscape (mark ++ rest) = some (c, ⟨rest, hlt⟩) := by
  cases h with
  | @letter mark _ h =>
    refine ⟨Nat.lt_succ_self _, ?_⟩
    show readEscape (mark :: rest) = _
    rw [readEscape, h]
    · rfl
    · rintro _ _ _ _ _ rfl
      cases h
    · rintro _ _ _ _ _ _ _ _ _ rfl
      cases h
  | @short digits _ hlength h =>
    match digits, hlength, h with
    | [a, b, d, e], _, h =>
      refine ⟨length_lt_append 'u' [a, b, d, e] rest, ?_⟩
      show readEscape ('u' :: a :: b :: d :: e :: rest) = _
      rw [readEscape, h]
      rfl
  | @long digits _ hlength h =>
    match digits, hlength, h with
    | [a, b, d, e, f, g, i, j], _, h =>
      refine ⟨length_lt_append 'U' [a, b, d, e, f, g, i, j] rest, ?_⟩
      show readEscape ('U' :: a :: b :: d :: e :: f :: g :: i :: j :: rest) = _
      rw [readEscape, h]
      rfl

/-- A text is read between double quotes exactly as the grammar says. -/
theorem readBasic_eq_some_iff : readBasic text = some (value, rest) ↔
    ∃ code, text = code ++ '"' :: rest ∧ BasicText code value := by
  constructor
  · intro h
    fun_induction readBasic text generalizing value with
    | case1 => cases h
    | case2 rest =>
      cases h
      exact ⟨[], rfl, .nil⟩
    | case3 => cases h
    | case4 text c after hescape ih =>
      obtain ⟨⟨value, rest⟩, hafter, heq⟩ := Option.map_eq_some_iff.mp h
      cases heq
      obtain ⟨mark, htext, hmark⟩ := exists_escape_of_readEscape hescape
      obtain ⟨code, hcode, hvalue⟩ := ih hafter
      exact ⟨'\\' :: (mark ++ code), by simp [htext, hcode], .escape hmark hvalue⟩
    | case5 c text hquote hbackslash hplain ih =>
      obtain ⟨⟨value, rest⟩, htext, heq⟩ := Option.map_eq_some_iff.mp h
      cases heq
      obtain ⟨code, rfl, hvalue⟩ := ih htext
      exact ⟨c :: code, rfl, .plain hplain hquote hbackslash hvalue⟩
    | case6 => cases h
  · rintro ⟨code, rfl, hvalue⟩
    induction hvalue with
    | nil => exact readBasic_quote rest
    | plain hplain hquote hbackslash _ ih =>
      rw [List.cons_append, readBasic_plain hplain hquote hbackslash, ih]
      rfl
    | @escape mark code value c hmark _ ih =>
      obtain ⟨hlt, hread⟩ := readEscape_append hmark (code ++ '"' :: rest)
      rw [List.cons_append, List.append_assoc, readBasic, hread]
      simp [ih]

/-! ### Written texts -/

lemma isPlain_of_codePoint? {digits : List Char} {c : Char} (h : codePoint? digits = some c) :
    ∀ d ∈ digits, isPlain d = true := by
  rw [codePoint?] at h
  split_ifs at h with hdigits
  rw [Bool.and_eq_true, List.all_eq_true] at hdigits
  exact fun d hd => isPlain_of_isHexDigit (hdigits.1 d hd)

lemma Escape.isPlain {mark : List Char} {c : Char} (h : Escape mark c) :
    ∀ d ∈ mark, isPlain d = true := by
  cases h with
  | @letter mark _ h =>
    unfold escapedChar? at h
    split at h <;> simp_all <;> rfl
  | short _ h => exact List.forall_mem_cons.mpr ⟨rfl, isPlain_of_codePoint? h⟩
  | long _ h => exact List.forall_mem_cons.mpr ⟨rfl, isPlain_of_codePoint? h⟩

/-- Only plain characters stand between double quotes. -/
lemma BasicText.isPlain (h : BasicText code value) : ∀ c ∈ code, isPlain c = true := by
  induction h with
  | nil => simp
  | plain hplain _ _ _ ih => exact List.forall_mem_cons.mpr ⟨hplain, ih⟩
  | escape hmark _ ih =>
    exact List.forall_mem_cons.mpr ⟨rfl, List.forall_mem_append.mpr ⟨hmark.isPlain, ih⟩⟩

lemma isWritable_or_escapeChar_eq (c : Char) : IsWritable c ∨ escapeChar c = [c] := by
  unfold escapeChar
  split <;> first | exact .inl (by decide) | exact .inr rfl

/-- A text in double quotes has a value if all its characters can be written, and only then, and its
value is the text. -/
lemma isBasicString_quoted_iff {text : String} : IsBasicString (quoted text).toList value ↔
    (∀ c ∈ text.toList, IsWritable c) ∧ value = text.toList := by
  constructor
  · rintro ⟨code, heq, hvalue⟩
    rw [toList_quoted, List.cons_inj_right, List.append_cancel_right_eq] at heq
    have hwritable : ∀ c ∈ text.toList, IsWritable c := by
      intro c hc
      refine (isWritable_or_escapeChar_eq c).elim id fun hescape => .inl (hvalue.isPlain c ?_)
      rw [← heq, List.mem_flatMap]
      exact ⟨c, hc, by rw [hescape]; exact List.mem_singleton_self c⟩
    -- The reader tells the value of the code.
    have hread : readBasic (code ++ ['"']) = some (value, []) :=
      readBasic_eq_some_iff.mpr ⟨code, rfl, hvalue⟩
    rw [← heq, readBasic_flatMap_escapeChar hwritable []] at hread
    cases hread
    exact ⟨hwritable, rfl⟩
  · rintro ⟨hwritable, rfl⟩
    obtain ⟨code, heq, hvalue⟩ :=
      readBasic_eq_some_iff.mp (readBasic_flatMap_escapeChar hwritable [])
    exact ⟨code, by rw [toList_quoted, heq], hvalue⟩

end RegisterMap.Toml
