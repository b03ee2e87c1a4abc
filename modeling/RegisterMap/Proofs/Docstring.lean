import Mathlib.Data.List.TakeWhile
import Mathlib.Tactic.Lemma
import Mathlib.Tactic.SplitIfs
import RegisterMap.Accessor.Docstring

/-!
# Documentation of blanks

Stripping a text leaves something of it unless it consists of blanks, and escaping removes nothing.
There is a documentation string for every text but those that consist of blanks and are not empty:
the empty text is left out before it is stripped, and a text of blanks is empty only afterwards.
-/

namespace RegisterMap

namespace Text

variable {text : List Char}

lemma grow_ne_nil (c : Char) (pieces : List (List Char)) : grow c pieces ≠ [] := by
  cases pieces <;> simp

lemma lines_eq_nil_iff : lines text = [] ↔ text = [] := by
  unfold lines
  split
  · simp
  · simp
  · split_ifs <;> simp [grow_ne_nil]

lemma stripRight_eq_nil_iff : stripRight text = [] ↔ ∀ c ∈ text, isBlank c = true := by
  simp [stripRight, List.dropWhile_eq_nil_iff]

lemma strip_eq_nil_iff : strip text = [] ↔ ∀ c ∈ text, isBlank c = true := by
  rw [strip, stripRight_eq_nil_iff]
  constructor
  · intro h c hc
    rw [← List.takeWhile_append_dropWhile (p := isBlank) (l := text), List.mem_append] at hc
    exact hc.elim List.mem_takeWhile_imp (h c)
  · intro h c hc
    exact h c ((List.dropWhile_sublist _).mem hc)

end Text

namespace Accessor

namespace Docstring

variable {text : List Char}

lemma doubleBackslashes_eq_nil_iff : doubleBackslashes text = [] ↔ text = [] := by
  cases text with
  | nil => simp [doubleBackslashes]
  | cons c rest =>
    simp only [doubleBackslashes, List.flatMap_cons]
    split_ifs <;> simp

lemma escapeMarks_eq_nil_iff : escapeMarks text = [] ↔ text = [] := by
  unfold escapeMarks
  split <;> simp

lemma escapeEnd_eq_nil_iff : escapeEnd text = [] ↔ text = [] := by
  unfold escapeEnd
  split
  next => rfl
  next before hreverse =>
    have hne : text ≠ [] := by
      rintro rfl
      cases hreverse
    simp [hne]
  next => rfl

lemma escape_eq_nil_iff : escape text = [] ↔ ∀ c ∈ text, Text.isBlank c = true := by
  rw [escape, escapeEnd_eq_nil_iff, escapeMarks_eq_nil_iff, doubleBackslashes_eq_nil_iff,
    Text.strip_eq_nil_iff]

lemma layout_eq_none_iff {lines : List (List Char)} : layout lines = none ↔ lines = [] := by
  unfold layout
  split <;> simp

/-- A text that is not empty and consists of blanks. -/
def IsBlank (text : String) : Prop := text ≠ "" ∧ ∀ c ∈ text.toList, Text.isBlank c = true

instance (text : String) : Decidable (IsBlank text) :=
  decidable_of_iff (text ≠ "" ∧ text.toList.all Text.isBlank = true) (by simp [IsBlank])

lemma not_isBlank_of_mem {text : String} {c : Char} (hc : c ∈ text.toList)
    (h : Text.isBlank c = false) : ¬IsBlank text := by
  rintro ⟨_, hall⟩
  simp [hall c hc] at h

lemma not_isBlank_empty : ¬IsBlank "" := fun h => h.1 rfl

/-- The documentation string for a text exists unless the text is blank. -/
lemma exists_docstring_iff {text : String} :
    (∃ code, docstring text = .ok code) ↔ ¬IsBlank text := by
  have hempty : text.isEmpty = true ↔ text = "" := String.isEmpty_iff
  unfold docstring IsBlank
  split_ifs with h
  · simp [hempty.mp h]
  · rw [← escape_eq_nil_iff, ← Text.lines_eq_nil_iff, ← layout_eq_none_iff,
      and_iff_right (hempty.not.mp h)]
    cases layout (Text.lines (escape text.toList)) <;> simp

end Docstring

end Accessor

end RegisterMap
