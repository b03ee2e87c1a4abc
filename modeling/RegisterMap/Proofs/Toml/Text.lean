import Mathlib.Tactic.Lemma
import RegisterMap.Numeral
import RegisterMap.Toml.Quoted
import RegisterMap.Toml.Text

/-!
# Written texts read back

A text without control characters, apart from tabs and line feeds, is read as it was written between
double quotes.
-/

namespace RegisterMap.Toml

/-- Whether a character can be written between double quotes: it is plain, or it is a line feed,
which is written as an escape. -/
def IsWritable (c : Char) : Prop := isPlain c = true ∨ c = '\n'

instance : DecidablePred IsWritable := fun c =>
  inferInstanceAs (Decidable (isPlain c = true ∨ c = '\n'))

lemma isPlain_of_toNat {c : Char} (hlow : 0x20 ≤ c.toNat) (hhigh : c.toNat < 0x7f) :
    isPlain c = true := by
  rw [isPlain, Bool.or_eq_true, Bool.and_eq_true, decide_eq_true_eq, bne_iff_ne]
  exact .inr ⟨hlow, Nat.ne_of_lt hhigh⟩

lemma isPlain_of_isHexDigit {c : Char} (h : Numeral.isHexDigit c = true) : isPlain c = true := by
  simp only [Numeral.isHexDigit, Char.isDigit, Bool.or_eq_true, Bool.and_eq_true,
    decide_eq_true_eq, UInt32.le_iff_toNat_le] at h
  change ((0x30 ≤ c.toNat ∧ c.toNat ≤ 0x39) ∨ 0x61 ≤ c.toNat ∧ c.toNat ≤ 0x66) ∨
    0x41 ≤ c.toNat ∧ c.toNat ≤ 0x46 at h
  exact isPlain_of_toNat (by omega) (by omega)

@[simp] lemma readBasic_quote (rest : List Char) : readBasic ('"' :: rest) = some ([], rest) := by
  rw [readBasic]

lemma readBasic_escape {c escaped : Char} {rest : List Char}
    (h : readEscape (escaped :: rest) = some (c, ⟨rest, Nat.lt_succ_self _⟩)) :
    readBasic ('\\' :: escaped :: rest) =
      (readBasic rest).map fun (value, rest) => (c :: value, rest) := by
  rw [readBasic, h]

lemma readBasic_plain {c : Char} (hplain : isPlain c = true) (hquote : c ≠ '"')
    (hbackslash : c ≠ '\\') (rest : List Char) :
    readBasic (c :: rest) = (readBasic rest).map fun (value, rest) => (c :: value, rest) := by
  rw [readBasic, if_pos hplain]
  · exact hquote
  · exact hbackslash

/-- A character is read as it was written. -/
lemma readBasic_escapeChar {c : Char} (h : IsWritable c) (rest : List Char) :
    readBasic (escapeChar c ++ rest) =
      (readBasic rest).map fun (value, rest) => (c :: value, rest) := by
  unfold escapeChar
  split
  · exact readBasic_escape rfl
  · exact readBasic_escape rfl
  · exact readBasic_escape rfl
  · exact readBasic_escape rfl
  next hbackslash hquote hbreak _ =>
    exact readBasic_plain (h.resolve_right hbreak) hquote hbackslash rest

lemma readBasic_flatMap_escapeChar {text : List Char} (h : ∀ c ∈ text, IsWritable c)
    (rest : List Char) :
    readBasic (text.flatMap escapeChar ++ '"' :: rest) = some (text, rest) := by
  induction text with
  | nil => simp
  | cons c text ih =>
    obtain ⟨hc, htext⟩ := List.forall_mem_cons.mp h
    rw [List.flatMap_cons, List.append_assoc, readBasic_escapeChar hc, ih htext]
    rfl

lemma toList_quoted (text : String) :
    (quoted text).toList = '"' :: (text.toList.flatMap escapeChar ++ ['"']) := by
  simp [quoted]

end RegisterMap.Toml
