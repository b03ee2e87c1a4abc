import Mathlib.Data.List.Infix
import RegisterMap.Proofs.Docstring.Body
import RegisterMap.Proofs.Lines

/-!
# Escaped texts

Escaping doubles backslashes and escapes runs of three quotes, which leaves a text without bare
marks that stands for the text it is made of. The quote at its end is escaped last, unless a
backslash stands before it. This is meant for a quote that is escaped already, but it also holds
after a doubled backslash. So a text is escaped as it should be unless it ends with a backslash and
a quote.
-/

namespace RegisterMap.Accessor.Docstring

open Position

variable {text : List Char} {quotes last : Nat}

/-! ### Escaping marks -/

/-- A text in which backslashes are doubled and runs of three quotes are escaped. -/
def protect : List Char → List Char
  | '"' :: '"' :: '"' :: rest => '\\' :: '"' :: '\\' :: '"' :: '\\' :: '"' :: protect rest
  | '\\' :: rest => '\\' :: '\\' :: protect rest
  | c :: rest => c :: protect rest
  | [] => []

lemma protect_cons {c : Char} {rest : List Char} (hbackslash : c ≠ '\\')
    (hquotes : ∀ rest', c = '"' → rest ≠ '"' :: '"' :: rest') :
    protect (c :: rest) = c :: protect rest := by
  rw [protect]
  · rintro rest' rfl rfl
    exact hquotes rest' rfl rfl
  · exact hbackslash

lemma doubleBackslashes_cons (c : Char) (rest : List Char) : doubleBackslashes (c :: rest) =
    (if c = '\\' then ['\\', '\\'] else [c]) ++ doubleBackslashes rest := List.flatMap_cons

lemma escapeMarks_cons {c : Char} {rest : List Char}
    (hquotes : ∀ rest', c = '"' → rest ≠ '"' :: '"' :: rest') :
    escapeMarks (c :: rest) = c :: escapeMarks rest := by
  rw [escapeMarks]
  rintro rest' rfl rfl
  exact hquotes rest' rfl rfl

lemma doubleBackslashes_eq_quotes {rest : List Char}
    (h : doubleBackslashes text = '"' :: '"' :: rest) : ∃ rest', text = '"' :: '"' :: rest' := by
  have hcons {c : Char} {others rest : List Char}
      (h : doubleBackslashes (c :: others) = '"' :: rest) :
      c = '"' ∧ doubleBackslashes others = rest := by
    rw [doubleBackslashes_cons] at h
    split_ifs at h
    · cases h
    · exact List.cons.inj h
  rcases text with _ | ⟨c, _ | ⟨d, others⟩⟩
  · cases h
  · obtain ⟨_, hnil⟩ := hcons h
    cases hnil
  · obtain ⟨rfl, hothers⟩ := hcons h
    obtain ⟨rfl, _⟩ := hcons hothers
    exact ⟨others, rfl⟩

lemma escapeMarks_doubleBackslashes (text : List Char) :
    escapeMarks (doubleBackslashes text) = protect text := by
  fun_induction protect text with
  | case1 rest ih =>
    rw [← ih]
    rfl
  | case2 rest ih =>
    rw [doubleBackslashes_cons, if_pos rfl, List.cons_append, List.singleton_append,
      escapeMarks_cons (by simp), escapeMarks_cons (by simp), ih]
  | case3 c rest hquotes hbackslash ih =>
    rw [doubleBackslashes_cons, if_neg hbackslash, List.singleton_append, escapeMarks_cons, ih]
    intro rest' hc heq
    obtain ⟨others, rfl⟩ := doubleBackslashes_eq_quotes heq
    exact hquotes others hc rfl
  | case4 => rfl

lemma bodyValue?_protect (text : List Char) : bodyValue? (protect text) = some text := by
  fun_induction protect text with
  | case1 rest ih =>
    rw [bodyValue?_escape (.inl rfl), bodyValue?_escape (.inl rfl), bodyValue?_escape (.inl rfl),
      ih]
    rfl
  | case2 rest ih =>
    rw [bodyValue?_escape (.inr rfl), ih]
    rfl
  | case3 c rest _ hbackslash ih =>
    rw [bodyValue?_cons hbackslash, ih]
    rfl
  | case4 => rfl

/-- The quotes that are left bare at the start of a text do not make up three with those before
it. -/
lemma exists_run_protect (text : List Char)
    (h : quotes = 0 ∨ quotes < 3 ∧ ¬List.replicate (3 - quotes) '"' <+: text) :
    ∃ last, run (after quotes) (protect text) = some (after last) := by
  fun_induction protect text generalizing quotes with
  | case1 rest ih =>
    rw [run_escaped (.inl rfl), run_escaped (.inl rfl), run_escaped (.inl rfl)]
    exact ih (.inl rfl)
  | case2 rest ih =>
    rw [run_escaped (.inr rfl)]
    exact ih (.inl rfl)
  | case3 c rest hquotes hbackslash ih =>
    by_cases hquote : c = '"'
    · subst hquote
      have hrest : quotes < 2 ∧ ¬List.replicate (2 - quotes) '"' <+: rest := by
        rcases h with rfl | ⟨hlt, hprefix⟩
        · exact ⟨by decide, fun ⟨rest', heq⟩ => hquotes rest' rfl heq.symm⟩
        · rw [show 3 - quotes = 2 - quotes + 1 by omega, List.replicate_succ,
            List.cons_prefix_cons, not_and] at hprefix
          refine ⟨?_, hprefix rfl⟩
          by_contra hge
          exact hprefix rfl (by simp [show 2 - quotes = 0 by omega])
      rw [run_cons, step, if_pos rfl, if_pos hrest.1, Option.bind_some]
      exact ih (.inr ⟨by omega, by simpa using hrest.2⟩)
    · rw [run_cons_of_ne hquote hbackslash]
      exact ih (.inl rfl)
  | case4 => exact ⟨quotes, rfl⟩

lemma protect_append_backslash (text rest : List Char) :
    protect (text ++ '\\' :: rest) = protect text ++ '\\' :: '\\' :: protect rest := by
  fun_induction protect text with
  | case1 text ih => simpa [protect] using ih
  | case2 text ih => simpa [protect] using ih
  | case3 c text hquotes hbackslash ih =>
    rw [List.cons_append, protect_cons hbackslash, ih, List.cons_append]
    intro rest' hc heq
    rcases text with _ | ⟨d, _ | ⟨e, text⟩⟩
    · simp at heq
    · simp at heq
    · simp only [List.cons_append, List.cons.injEq] at heq
      obtain ⟨rfl, rfl, _⟩ := heq
      exact hquotes text hc rfl
  | case4 => rfl

/-! ### Escaping ends -/

lemma escapeEnd_concat_of_ne {c : Char} (h : c ≠ '"') (text : List Char) :
    escapeEnd (text ++ [c]) = text ++ [c] := by
  rw [escapeEnd, List.reverse_concat]
  split <;> simp_all

lemma escapeEnd_append_escape (text : List Char) :
    escapeEnd (text ++ ['\\', '"']) = text ++ ['\\', '"'] := by
  rw [escapeEnd, List.reverse_append]
  rfl

lemma escapeEnd_concat_quote (h : ∀ front, text ≠ front ++ ['\\']) :
    escapeEnd (text ++ ['"']) = text ++ ['\\', '"'] := by
  rw [escapeEnd, List.reverse_concat]
  split
  next rest heq =>
    have hreverse : text.reverse = '\\' :: rest := (List.cons.inj heq).2
    exact absurd (by rw [← List.reverse_reverse text, hreverse, List.reverse_cons]) (h rest.reverse)
  next before _ heq =>
    rw [← (List.cons.inj heq).2, List.reverse_reverse]
  next _ hquote => exact absurd rfl (hquote text.reverse)

/-- Escaping the end of a text without bare marks leaves no bare quote there, unless a doubled
backslash stands before it. -/
lemma escapeEnd_cases (h : run (after 0) text = some (after last)) :
    (last = 0 ∧ escapeEnd text = text) ∨
      (∃ front quotes, text = front ++ ['"'] ∧ escapeEnd text = front ++ ['\\', '"'] ∧
        run (after 0) front = some (after quotes)) ∨
      ∃ front quotes, text = front ++ ['\\', '\\', '"'] ∧
        run (after 0) front = some (after quotes) := by
  rcases text.eq_nil_or_concat with rfl | ⟨front, c, rfl⟩
  · cases h
    exact .inl ⟨rfl, rfl⟩
  rw [List.concat_eq_append] at h ⊢
  obtain ⟨p, hfront, hstep⟩ := run_concat h
  by_cases hquote : c = '"'
  · subst hquote
    cases p with
    | escaped =>
      obtain ⟨front, _, rfl, _⟩ := exists_eq_concat_of_run_escaped hfront nofun
      cases hstep
      refine .inl ⟨rfl, ?_⟩
      rw [List.append_assoc]
      exact escapeEnd_append_escape front
    | after quotes =>
      by_cases hend : ∃ front', front = front' ++ ['\\']
      · obtain ⟨front', rfl⟩ := hend
        obtain ⟨q, hfront', hbackslash⟩ := run_concat hfront
        rw [eq_escaped_of_step hbackslash] at hfront'
        obtain ⟨front'', n, rfl, hrun⟩ := exists_eq_concat_of_run_escaped hfront' nofun
        exact .inr (.inr ⟨front'', n, by simp, hrun⟩)
      · exact .inr (.inl ⟨front, quotes, rfl, escapeEnd_concat_quote fun front' heq =>
          hend ⟨front', heq⟩, hfront⟩)
  · exact .inl ⟨eq_zero_of_step hquote hstep, escapeEnd_concat_of_ne hquote front⟩

lemma getLast?_protect (text : List Char) : (protect text).getLast? = text.getLast? := by
  fun_induction protect text <;> simp [List.getLast?_cons, *]

lemma mem_protect {c : Char} (hc : c ≠ '\\') : c ∈ protect text ↔ c ∈ text := by
  fun_induction protect text with
  | case1 rest ih => simp only [List.mem_cons, ih, hc, false_or]
  | case2 rest ih => simp only [List.mem_cons, ih, hc, false_or]
  | case3 d rest _ _ ih => simp only [List.mem_cons, ih]
  | case4 => rfl

lemma escapeEnd_eq_or (text : List Char) : escapeEnd text = text ∨
    ∃ front, text = front ++ ['"'] ∧ escapeEnd text = front ++ ['\\', '"'] := by
  unfold escapeEnd
  split
  next => exact .inl rfl
  next before _ hreverse =>
    exact .inr ⟨before.reverse, by rw [← List.reverse_cons, ← hreverse, List.reverse_reverse], rfl⟩
  next => exact .inl rfl

lemma getLast?_escapeEnd (text : List Char) : (escapeEnd text).getLast? = text.getLast? := by
  rcases escapeEnd_eq_or text with h | ⟨front, rfl, h⟩
  · rw [h]
  · rw [h]
    simp

lemma mem_escapeEnd {c : Char} (hc : c ≠ '\\') : c ∈ escapeEnd text ↔ c ∈ text := by
  rcases escapeEnd_eq_or text with h | ⟨front, rfl, h⟩
  · rw [h]
  · rw [h]
    simp [hc]

/-! ### Escaped texts -/

lemma escape_eq (text : List Char) : escape text = escapeEnd (protect (Text.strip text)) := by
  rw [escape, escapeMarks_doubleBackslashes]

lemma isOneLine_escape_iff :
    Text.IsOneLine (escape text) ↔ Text.IsOneLine (Text.strip text) := by
  have hmem {c : Char} (hc : c ≠ '\\') : c ∈ escape text ↔ c ∈ Text.strip text := by
    rw [escape_eq, mem_escapeEnd hc, mem_protect hc]
  have hne {c : Char} (h : ¬Text.isLineBreak c = false) : c ≠ '\\' := by
    rintro rfl
    exact h rfl
  constructor <;> refine fun h c hc => by_contra fun hbreak => hbreak (h c ?_)
  · exact (hmem (hne hbreak)).mpr hc
  · exact (hmem (hne hbreak)).mp hc

lemma getLast?_escape (text : List Char) : (escape text).getLast? = (Text.strip text).getLast? := by
  rw [escape_eq, getLast?_escapeEnd, getLast?_protect]

/-- A text that does not end with a backslash and a quote is escaped as a text without bare marks,
which also stands for it. -/
lemma run_escape (h : ¬['\\', '"'] <:+ Text.strip text) :
    run (after 0) (escape text) = some (after 0) ∧
      bodyValue? (escape text) = some (Text.strip text) := by
  rw [escape_eq]
  generalize Text.strip text = stripped at h ⊢
  have hvalue := bodyValue?_protect stripped
  obtain ⟨last, hrun⟩ := exists_run_protect stripped (.inl rfl)
  rcases escapeEnd_cases hrun with
    ⟨rfl, heq⟩ | ⟨front, quotes, htext, heq, hfront⟩ | ⟨front, quotes, htext, hfront⟩
  · rw [heq]
    exact ⟨hrun, hvalue⟩
  · rw [heq]
    refine ⟨?_, ?_⟩
    · rw [run_of_run hfront, run_escaped (.inl rfl), run_nil]
    · rw [bodyValue?_append hfront, ← hvalue, htext, bodyValue?_append hfront]
      rfl
  · rw [htext, bodyValue?_append hfront] at hvalue
    obtain ⟨value, _, hvalue⟩ := Option.bind_eq_some_iff.mp hvalue
    exact absurd ⟨value, Option.some.inj hvalue⟩ h

/-- The quote at the end of other texts is left bare. -/
lemma exists_escape_eq_concat (h : ['\\', '"'] <:+ Text.strip text) :
    ∃ front, escape text = front ++ ['"'] ∧ run (after 0) front = some (after 0) := by
  obtain ⟨front, hfront⟩ := h
  obtain ⟨last, hrun⟩ := exists_run_protect front (.inl rfl)
  have hprotect : protect (Text.strip text) = protect front ++ ['\\'] ++ ['\\', '"'] := by
    rw [← hfront, protect_append_backslash]
    simp [protect]
  refine ⟨protect front ++ ['\\', '\\'], ?_, ?_⟩
  · rw [escape_eq, hprotect, escapeEnd_append_escape]
    simp
  · rw [run_of_run hrun, run_escaped (.inr rfl), run_nil]

lemma exists_run_escape (text : List Char) :
    ∃ last, run (after 0) (escape text) = some (after last) := by
  by_cases h : ['\\', '"'] <:+ Text.strip text
  · obtain ⟨front, heq, hrun⟩ := exists_escape_eq_concat h
    exact ⟨1, by rw [heq, run_of_run hrun]; rfl⟩
  · exact ⟨0, (run_escape h).1⟩

end RegisterMap.Accessor.Docstring
