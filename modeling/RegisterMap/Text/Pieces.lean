/-!
# Pieces of text

Cutting text into pieces means building a list of pieces from right to left. `grow` adds a
character to the piece in front, and starts a piece where there is none.
-/

namespace RegisterMap.Text

/-- Put a character before the first piece, or make it a piece of its own. -/
def grow (c : Char) : List (List Char) → List (List Char)
  | [] => [[c]]
  | piece :: pieces => (c :: piece) :: pieces

@[simp] theorem grow_nil (c : Char) : grow c [] = [[c]] := rfl

@[simp] theorem grow_cons (c : Char) (piece : List Char) (pieces : List (List Char)) :
    grow c (piece :: pieces) = (c :: piece) :: pieces := rfl

@[simp] theorem flatten_grow (c : Char) (pieces : List (List Char)) :
    (grow c pieces).flatten = c :: pieces.flatten := by
  cases pieces <;> simp

/-- A character that stands neither in the pieces nor between them is not in the whole text. -/
theorem not_mem_intercalate {c : Char} {separator : List Char} (h : c ∉ separator)
    {pieces : List (List Char)} (hpieces : ∀ piece ∈ pieces, c ∉ piece) :
    c ∉ separator.intercalate pieces := by
  induction pieces with
  | nil => exact List.not_mem_nil
  | cons piece pieces ih =>
    obtain ⟨hpiece, hrest⟩ := List.forall_mem_cons.mp hpieces
    cases pieces with
    | nil => rwa [List.intercalate_singleton]
    | cons next pieces =>
      rw [List.intercalate_cons_cons, List.mem_append, List.mem_append]
      rintro ((hmem | hmem) | hmem)
      · exact hpiece hmem
      · exact h hmem
      · exact ih hrest hmem

/-- A test that ends at the end of the text also ends before one final line feed: this is the
text up to there. -/
def beforeFinalBreak (text : List Char) : List Char :=
  if text.getLast? = some '\n' then text.dropLast else text

@[simp] theorem beforeFinalBreak_concat (text : List Char) :
    beforeFinalBreak (text ++ ['\n']) = text := by
  simp [beforeFinalBreak]

theorem beforeFinalBreak_of_not_mem {text : List Char} (h : '\n' ∉ text) :
    beforeFinalBreak text = text :=
  if_neg fun hlast => h (List.mem_of_getLast? hlast)

/-- At most a line feed stands after the part before it. -/
theorem eq_beforeFinalBreak_or (text : List Char) :
    text = beforeFinalBreak text ∨ text = beforeFinalBreak text ++ ['\n'] := by
  by_cases hlast : text.getLast? = some '\n'
  · obtain ⟨init, rfl⟩ := List.getLast?_eq_some_iff.mp hlast
    rw [beforeFinalBreak_concat]
    exact .inr rfl
  · exact .inl (if_neg hlast).symm

end RegisterMap.Text
