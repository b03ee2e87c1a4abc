import Mathlib.Data.List.TakeWhile
import Mathlib.Tactic.ByContra
import Mathlib.Tactic.Lemma
import RegisterMap.Text.Blank

/-!
# Lines of texts

A text without line breaks is a line by itself. Otherwise its lines are what stands before its
first line break and the lines of what comes after it. Line breaks are blanks: stripping a text
leaves none of them at its end.
-/

namespace RegisterMap.Text

variable {text : List Char}

/-- Whether a text has no line breaks. -/
def IsOneLine (text : List Char) : Prop := ∀ c ∈ text, isLineBreak c = false

instance (text : List Char) : Decidable (IsOneLine text) :=
  decidable_of_iff (text.all (!isLineBreak ·) = true) (by simp [IsOneLine])

lemma lines_cons {c : Char} (h : isLineBreak c = false) (rest : List Char) :
    lines (c :: rest) = grow c (lines rest) := by
  rw [lines, if_neg (by simp [h])]
  rintro _ rfl
  cases h

lemma lines_of_isOneLine (hne : text ≠ []) (h : IsOneLine text) : lines text = [text] := by
  induction text with
  | nil => exact absurd rfl hne
  | cons c rest ih =>
    obtain ⟨hc, hrest⟩ := List.forall_mem_cons.mp h
    rw [lines_cons hc]
    by_cases hnil : rest = []
    · rw [hnil]
      rfl
    · rw [ih hnil hrest]
      rfl

/-- The first line of a text ends at its first line break, which may have a line feed after it. -/
lemma exists_lines_eq_cons (h : ¬IsOneLine text) :
    ∃ line c rest others, text = line ++ c :: rest ∧ isLineBreak c = true ∧
      lines text = line :: lines others ∧ (rest = others ∨ rest = '\n' :: others) := by
  induction text with
  | nil => exact absurd (by simp [IsOneLine]) h
  | cons c text ih =>
    cases hc : isLineBreak c with
    | true =>
      by_cases hpair : c = '\r' ∧ ∃ others, text = '\n' :: others
      · obtain ⟨rfl, others, rfl⟩ := hpair
        exact ⟨[], '\r', _, others, rfl, rfl, by rw [lines], .inr rfl⟩
      · refine ⟨[], c, text, text, rfl, hc, ?_, .inl rfl⟩
        rw [lines, if_pos hc]
        rintro others rfl rfl
        exact hpair ⟨rfl, others, rfl⟩
    | false =>
      have htext : ¬IsOneLine text := fun hall => h (List.forall_mem_cons.mpr ⟨hc, hall⟩)
      obtain ⟨line, d, rest, others, rfl, hd, hlines, hrest⟩ := ih htext
      refine ⟨c :: line, d, rest, others, rfl, hd, ?_, hrest⟩
      rw [lines_cons hc, hlines]
      rfl

lemma isBlank_of_isLineBreak {c : Char} (h : isLineBreak c = true) : isBlank c = true := by
  simp only [isLineBreak, isBlank, Bool.or_eq_true, Bool.and_eq_true, decide_eq_true_eq,
    beq_iff_eq] at h ⊢
  omega

lemma ne_of_isBlank {c : Char} (h : isBlank c = true) : c ≠ '"' ∧ c ≠ '\\' := by
  constructor <;> rintro rfl <;> cases h

/-- What is left of a text that is stripped does not end with a blank. -/
lemma isBlank_of_getLast?_strip {c : Char} (h : (strip text).getLast? = some c) :
    isBlank c = false := by
  obtain ⟨front, h⟩ := List.getLast?_eq_some_iff.mp h
  have hreverse : (text.dropWhile isBlank).reverse.dropWhile isBlank = c :: front.reverse := by
    rw [strip, stripRight, List.reverse_eq_iff] at h
    simpa using h
  have hhead := List.head?_dropWhile_not isBlank (text.dropWhile isBlank).reverse
  rw [hreverse] at hhead
  simpa using hhead

/-- Stripping the end of a text cuts it at a blank, or leaves it as it is. -/
lemma eq_stripRight_append (text : List Char) :
    stripRight text = text ∨ ∃ c rest, text = stripRight text ++ c :: rest ∧ isBlank c = true := by
  have happend : text = stripRight text ++ (text.reverse.takeWhile isBlank).reverse := by
    rw [stripRight, ← List.reverse_append, List.takeWhile_append_dropWhile, List.reverse_reverse]
  cases hrest : (text.reverse.takeWhile isBlank).reverse with
  | nil =>
    rw [hrest, List.append_nil] at happend
    exact .inl happend.symm
  | cons c rest =>
    refine .inr ⟨c, rest, hrest ▸ happend, ?_⟩
    have hmem : c ∈ text.reverse.takeWhile isBlank := by
      rw [← List.mem_reverse, hrest]
      exact List.mem_cons_self
    exact List.mem_takeWhile_imp hmem

end RegisterMap.Text
