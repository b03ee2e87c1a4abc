import RegisterMap.Accessor.Writer
import RegisterMap.Proofs.Docstring
import RegisterMap.Proofs.Docstring.Escape

/-!
# Documentation strings as literals

The lines of a documentation string are one literal: after the opening mark the first mark that is
not escaped ends the last line. A text on one line is the value of its literal. Both fail for texts
on one line that end with a backslash and a quote, and for no others: the doubled backslash is taken
for one that escapes the quote.
-/

namespace RegisterMap.Accessor

/-! ### Indented lines -/

namespace Code

lemma indentBy_eq_map (c : Code) (level : Nat) : c.indentBy level = c.map indentLine^[level] := by
  induction level with
  | zero => simp [indentBy]
  | succ level ih => rw [indentBy, ih, indent, List.map_map, Function.iterate_succ']

lemma iterate_indentLine_empty (level : Nat) : indentLine^[level] "" = "" :=
  Function.iterate_fixed rfl level

lemma toList_iterate_indentLine {line : String} (h : line ≠ "") (level : Nat) :
    (indentLine^[level] line).toList = List.replicate (4 * level) ' ' ++ line.toList := by
  induction level with
  | zero => rfl
  | succ level ih =>
    have hne : ¬(indentLine^[level] line).isEmpty = true := by
      rw [String.isEmpty_iff, ← String.toList_eq_nil_iff, ih]
      simp [h]
    rw [Function.iterate_succ_apply', indentLine, if_neg hne, String.toList_append, ih,
      Nat.mul_succ, Nat.add_comm, List.replicate_add, List.append_assoc]
    rfl

/-- The characters of lines below another one, with those of the line breaks before them. -/
def charsBelow (lines : Code) : List Char := lines.flatMap fun line => '\n' :: line.toList

lemma head?_charsBelow_ne (lines : Code) : lines.charsBelow.head? ≠ some '"' := by
  cases lines <;> simp [charsBelow]

lemma toList_intercalate_cons (line : String) (lines : Code) :
    (String.intercalate "\n" (line :: lines)).toList = line.toList ++ charsBelow lines := by
  induction lines generalizing line with
  | nil => simp [charsBelow]
  | cons next lines ih =>
    have hcons : (String.intercalate "\n" (line :: next :: lines)).toList =
        line.toList ++ '\n' :: (String.intercalate "\n" (next :: lines)).toList := by
      simp [String.toList_intercalate]
    rw [hcons, ih]
    rfl

end Code

namespace Docstring

open Position

variable {text : List Char} {quotes last : Nat}

/-! ### Lines of bodies -/

/-- Each line of a text without bare marks is one. -/
lemma exists_run_of_mem_lines (h : run (after 0) text = some (after last)) :
    ∀ line ∈ Text.lines text, ∃ quotes, run (after 0) line = some (after quotes) := by
  induction hlength : text.length using Nat.strongRecOn generalizing text with
  | ind n ih =>
    intro line hline
    by_cases hone : Text.IsOneLine text
    · have hne : text ≠ [] := by
        rintro rfl
        cases hline
      rw [Text.lines_of_isOneLine hne hone, List.mem_singleton] at hline
      exact hline ▸ ⟨last, h⟩
    · obtain ⟨first, c, rest, others, rfl, hc, hlines, hrest⟩ := Text.exists_lines_eq_cons hone
      obtain ⟨hquote, hbackslash⟩ := Text.ne_of_isBlank (Text.isBlank_of_isLineBreak hc)
      obtain ⟨hfirst, hrun⟩ := exists_run_of_ne hquote hbackslash h
      rw [hlines] at hline
      rcases List.mem_cons.mp hline with rfl | hline
      · exact hfirst
      · rcases hrest with rfl | rfl
        · exact ih _ (by simp [← hlength]; omega) hrun rfl line hline
        · rw [run_cons_of_ne (by decide) (by decide)] at hrun
          exact ih _ (by simp [← hlength]; omega) hrun rfl line hline

lemma exists_run_stripRight (h : run (after 0) text = some (after last)) :
    ∃ quotes, run (after 0) (Text.stripRight text) = some (after quotes) := by
  rcases Text.eq_stripRight_append text with heq | ⟨c, rest, heq, hc⟩
  · rw [heq]
    exact ⟨last, h⟩
  · obtain ⟨hquote, hbackslash⟩ := Text.ne_of_isBlank hc
    rw [heq] at h
    exact (exists_run_of_ne hquote hbackslash h).1

/-! ### Layout of literals -/

/-- Some lines, indented by some levels, are one literal: they start with the mark, and the text
after it is a body and the mark that ends it. -/
def IsLiteral (level : Nat) (lines : Code) (body : List Char) : Prop :=
  ∃ rest, (String.intercalate "\n" lines).toList =
    List.replicate (4 * level) ' ' ++ (mark.toList ++ rest) ∧ readBody rest = some (body, [])

lemma isLiteral_iff {level : Nat} {first : String} {lines : Code} {body : List Char} :
    IsLiteral level (Code.indentBy ((mark ++ first) :: lines) level) body ↔
      readBody (first.toList ++ (Code.indentBy lines level).charsBelow) = some (body, []) := by
  have hne : mark ++ first ≠ "" := by
    rw [ne_eq, ← String.toList_eq_nil_iff, String.toList_append]
    exact List.cons_ne_nil _ _
  have htext : (String.intercalate "\n" (Code.indentBy ((mark ++ first) :: lines) level)).toList =
      List.replicate (4 * level) ' ' ++
        (mark.toList ++ (first.toList ++ (Code.indentBy lines level).charsBelow)) := by
    rw [Code.indentBy_eq_map, List.map_cons, ← Code.indentBy_eq_map, Code.toList_intercalate_cons,
      Code.toList_iterate_indentLine hne, String.toList_append]
    simp only [List.append_assoc]
  constructor
  · rintro ⟨rest, heq, hread⟩
    rw [htext, List.append_cancel_left_eq, List.append_cancel_left_eq] at heq
    rwa [heq]
  · exact fun hread => ⟨_, htext, hread⟩

lemma run_replicate_blank (count : Nat) :
    run (after 0) (List.replicate count ' ') = some (after 0) := by
  induction count with
  | zero => rfl
  | succ count ih => rw [List.replicate_succ, run_cons_of_ne (by decide) (by decide), ih]

lemma exists_run_indentLine {line : String}
    (h : ∃ quotes, run (after 0) line.toList = some (after quotes)) (level : Nat) :
    ∃ quotes, run (after 0) (Code.indentLine^[level] line).toList = some (after quotes) := by
  by_cases hempty : line = ""
  · rw [hempty, Code.iterate_indentLine_empty]
    exact ⟨0, rfl⟩
  · rw [Code.toList_iterate_indentLine hempty, run_of_run (run_replicate_blank _)]
    exact h

/-- Lines without bare marks above the closing mark are the rest of a body. -/
lemma exists_readBody_charsBelow {lines : Code} (level : Nat)
    (h : ∀ line ∈ lines, ∃ quotes, run (after 0) line.toList = some (after quotes)) :
    ∃ body, readBody (Code.indentBy (lines ++ [mark]) level).charsBelow = some (body, []) := by
  induction lines with
  | nil =>
    have hchars : (Code.indentBy [mark] level).charsBelow =
        '\n' :: List.replicate (4 * level) ' ' ++ mark.toList := by
      rw [Code.indentBy_eq_map, List.map_singleton, Code.charsBelow, List.flatMap_singleton,
        Code.toList_iterate_indentLine (by decide)]
      rfl
    have hrun : run (after 0) ('\n' :: List.replicate (4 * level) ' ') = some (after 0) := by
      rw [run_cons_of_ne (by decide) (by decide), run_replicate_blank]
    rw [List.nil_append, hchars, readBody_append hrun (.inl rfl)]
    exact ⟨_, rfl⟩
  | cons line lines ih =>
    obtain ⟨hline, hlines⟩ := List.forall_mem_cons.mp h
    obtain ⟨body, hbody⟩ := ih hlines
    obtain ⟨last, hrun⟩ := exists_run_indentLine hline level
    have hchars : (Code.indentBy (line :: lines ++ [mark]) level).charsBelow =
        '\n' :: (Code.indentLine^[level] line).toList ++
          (Code.indentBy (lines ++ [mark]) level).charsBelow := by
      rw [Code.indentBy_eq_map, Code.indentBy_eq_map]
      rfl
    have hrun' : run (after 0) ('\n' :: (Code.indentLine^[level] line).toList) =
        some (after last) := by
      rw [run_cons_of_ne (by decide) (by decide), hrun]
    rw [hchars, readBody_append hrun' (.inr (Code.head?_charsBelow_ne _)), hbody]
    exact ⟨_, rfl⟩

/-! ### Documentation strings -/

/-- What a text is laid out as, on one line or on several. -/
lemma docstring_eq {text : String} (hblank : ∃ c ∈ text.toList, Text.isBlank c = false) :
    (Text.IsOneLine (Text.strip text.toList) ∧
      docstring text = .ok [mark ++ (String.ofList (escape text.toList) ++ mark)]) ∨
    ¬Text.IsOneLine (Text.strip text.toList) ∧
      ∃ line others, Text.lines (escape text.toList) = line :: others ∧
        docstring text = .ok ((mark ++ String.ofList line) ::
          (others.map (fun line => String.ofList (Text.stripRight line)) ++ [mark])) := by
  obtain ⟨c, hc, hc'⟩ := hblank
  have hescape : escape text.toList ≠ [] := by
    rw [ne_eq, escape_eq_nil_iff]
    intro hall
    rw [hall c hc] at hc'
    cases hc'
  have hempty : ¬text.isEmpty = true := by
    rw [String.isEmpty_iff]
    rintro rfl
    cases hc
  rw [docstring, if_neg hempty, ← isOneLine_escape_iff]
  by_cases hone : Text.IsOneLine (escape text.toList)
  · refine .inl ⟨hone, ?_⟩
    rw [Text.lines_of_isOneLine hescape hone, layout, String.append_assoc]
  · obtain ⟨line, c, rest, others, htext, hc, hlines, hrest⟩ := Text.exists_lines_eq_cons hone
    have hothers : Text.lines others ≠ [] := by
      rw [ne_eq, Text.lines_eq_nil_iff]
      rintro rfl
      have hlast : ∃ d, (escape text.toList).getLast? = some d ∧ Text.isLineBreak d = true := by
        rw [htext]
        rcases hrest with rfl | rfl
        · exact ⟨c, by simp, hc⟩
        · exact ⟨'\n', by simp, rfl⟩
      obtain ⟨d, hd, hbreak⟩ := hlast
      rw [getLast?_escape] at hd
      cases (Text.isBlank_of_getLast?_strip hd).symm.trans (Text.isBlank_of_isLineBreak hbreak)
    obtain ⟨next, others', heq⟩ := List.exists_cons_of_ne_nil hothers
    refine .inr ⟨hone, line, Text.lines others, hlines, ?_⟩
    rw [hlines, heq, layout]
    · rfl
    · exact nofun

/-- What is on one line is one literal unless it ends with a backslash and a quote. -/
lemma isLiteral_oneLine_iff (text : List Char) (level : Nat) (body : List Char) :
    IsLiteral level (Code.indentBy [mark ++ (String.ofList (escape text) ++ mark)] level) body ↔
      ¬['\\', '"'] <:+ Text.strip text ∧ body = escape text := by
  rw [isLiteral_iff, Code.indentBy_eq_map, List.map_nil, Code.charsBelow, List.flatMap_nil,
    List.append_nil, String.toList_append, String.toList_ofList]
  by_cases hend : ['\\', '"'] <:+ Text.strip text
  · obtain ⟨front, hescape, hrun⟩ := exists_escape_eq_concat hend
    rw [hescape, List.append_assoc, readBody_append hrun (.inl rfl)]
    simp [hend, mark, readBody]
  · rw [readBody_append (run_escape hend).1 (.inl rfl)]
    simp [hend, mark, readBody, eq_comm]

/-- A text on several lines is laid out as one literal. -/
lemma exists_isLiteral_of_lines {text line : List Char} {others : List (List Char)}
    (h : Text.lines (escape text) = line :: others) (level : Nat) :
    ∃ body, IsLiteral level (Code.indentBy ((mark ++ String.ofList line) ::
      (others.map (fun line => String.ofList (Text.stripRight line)) ++ [mark])) level) body := by
  obtain ⟨last, hrun⟩ := exists_run_escape text
  obtain ⟨hline, hothers⟩ := List.forall_mem_cons.mp (h ▸ exists_run_of_mem_lines hrun)
  obtain ⟨quotes, hline⟩ := hline
  have hbelow : ∃ body, readBody (Code.indentBy
      (others.map (fun line => String.ofList (Text.stripRight line)) ++ [mark]) level).charsBelow =
        some (body, []) := by
    refine exists_readBody_charsBelow level fun line hline => ?_
    obtain ⟨other, hother, rfl⟩ := List.mem_map.mp hline
    obtain ⟨_, hrun⟩ := hothers other hother
    rw [String.toList_ofList]
    exact exists_run_stripRight hrun
  obtain ⟨body, hbody⟩ := hbelow
  refine ⟨line ++ body, isLiteral_iff.mpr ?_⟩
  rw [String.toList_ofList, readBody_append hline (.inr (Code.head?_charsBelow_ne _)), hbody]
  rfl

/-- The documentation string for a text that does not consist of blanks is one literal, unless the
text without the blanks around it has one line and ends with a backslash and a quote. The literal
for a text on one line stands for the text without the blanks around it. -/
theorem docstring_isLiteral (w : Writer) (text : String)
    (hblank : ∃ c ∈ text.toList, Text.isBlank c = false) :
    ∃ lines, w.docstring text = .ok { w with code := w.code ++ lines } ∧
      ((∃ body, IsLiteral w.level lines body) ↔
        ¬(Text.IsOneLine (Text.strip text.toList) ∧ ['\\', '"'] <:+ Text.strip text.toList)) ∧
      (Text.IsOneLine (Text.strip text.toList) →
        ∀ body, IsLiteral w.level lines body →
          bodyValue? body = some (Text.strip text.toList)) := by
  rcases docstring_eq hblank with ⟨hone, hcode⟩ | ⟨hone, line, others, hlines, hcode⟩
  · refine ⟨_, by rw [Writer.docstring, hcode]; rfl, ?_, ?_⟩
    · simp [isLiteral_oneLine_iff, hone]
    · intro _ body hbody
      obtain ⟨hend, rfl⟩ := (isLiteral_oneLine_iff _ _ _).mp hbody
      exact (run_escape hend).2
  · refine ⟨_, by rw [Writer.docstring, hcode]; rfl, ?_, ?_⟩
    · exact iff_of_true (exists_isLiteral_of_lines hlines w.level) fun h => hone h.1
    · exact fun h => absurd h hone

theorem docstring_isLiteral_quoted :
    (∃ c ∈ "a \\ or \"b\" ".toList, Text.isBlank c = false) ∧
      ∃ lines body, (⟨[], 1⟩ : Writer).docstring "a \\ or \"b\" " = .ok ⟨lines, 1⟩ ∧
        IsLiteral 1 lines body ∧ bodyValue? body = some "a \\ or \"b\"".toList := by
  have hblank : ∃ c ∈ "a \\ or \"b\" ".toList, Text.isBlank c = false := ⟨'a', by decide, rfl⟩
  have hone : Text.IsOneLine "a \\ or \"b\"".toList := by decide
  obtain ⟨lines, hlines, hiff, hvalue⟩ := docstring_isLiteral ⟨[], 1⟩ "a \\ or \"b\" " hblank
  obtain ⟨body, hbody⟩ := hiff.mpr fun h => absurd h.2 (by decide)
  exact ⟨hblank, lines, body, hlines, hbody, hvalue hone body hbody⟩

/-- The backslash before the quote is doubled, which leaves the quote bare. -/
theorem docstring_not_isLiteral :
    Writer.empty.docstring "a\\\"" = .ok ⟨["\"\"\"a\\\\\"\"\"\""], 0⟩ ∧
      ¬∃ body, IsLiteral 0 ["\"\"\"a\\\\\"\"\"\""] body := by
  refine ⟨rfl, ?_⟩
  rintro ⟨body, rest, hrest, hread⟩
  obtain rfl : ['a', '\\', '\\', '"', '"', '"', '"'] = rest := by simpa [mark] using hrest
  cases hread

end Docstring

end RegisterMap.Accessor
