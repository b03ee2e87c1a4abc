import Mathlib.Tactic.Lemma
import Mathlib.Tactic.SplitIfs
import RegisterMap.Accessor.Docstring

/-!
# Bodies of literals

The body of a literal ends at the first three quotes in a row before which no backslash stands. A
text in which there are no such quotes, and in which backslashes stand only before a backslash or a
quote, is read on as a part of the body, and it stands for its characters without these backslashes.
-/

namespace RegisterMap.Accessor.Docstring

/-! ### Reading bodies -/

/-- Read the body of a literal up to its closing mark. A backslash takes the character after it
along. -/
def readBody : List Char → Option (List Char × List Char)
  | '"' :: '"' :: '"' :: rest => some ([], rest)
  | '\\' :: c :: rest => (readBody rest).map fun (body, rest) => ('\\' :: c :: body, rest)
  | c :: rest => (readBody rest).map fun (body, rest) => (c :: body, rest)
  | [] => none

/-- What a backslash and the character after it stand for. Where the character starts an escape of
several characters nothing is told. -/
def escapeValue? : Char → Option (List Char)
  | '\n' => some []
  | '\\' => some ['\\']
  | '\'' => some ['\'']
  | '"' => some ['"']
  | 'a' => some ['\x07']
  | 'b' => some ['\x08']
  | 'f' => some ['\x0c']
  | 'n' => some ['\n']
  | 'r' => some ['\r']
  | 't' => some ['\t']
  | 'v' => some ['\x0b']
  | c =>
    if c ∈ ['0', '1', '2', '3', '4', '5', '6', '7', 'x', 'u', 'U', 'N'] then none
    else some ['\\', c]

/-- The text that the body of a literal stands for. -/
def bodyValue? : List Char → Option (List Char)
  | '\\' :: c :: rest => (escapeValue? c).bind fun value => (bodyValue? rest).map (value ++ ·)
  | '\\' :: [] => none
  | c :: rest => (bodyValue? rest).map (c :: ·)
  | [] => some []

/-! ### Going through a body -/

/-- What has been seen directly before a place in a body: some bare quotes, or a backslash that
takes along what comes next. -/
inductive Position where
  | after (quotes : Nat)
  | escaped

namespace Position

/-- Go past a character. There is no way past a third bare quote, nor past an escape other than of a
backslash or a quote. -/
def step : Position → Char → Option Position
  | after quotes, c =>
    if c = '"' then if quotes < 2 then some (after (quotes + 1)) else none
    else if c = '\\' then some escaped
    else some (after 0)
  | escaped, c => if c = '"' ∨ c = '\\' then some (after 0) else none

def run (p : Position) (text : List Char) : Option Position := text.foldlM step p

variable {p p' : Position} {text others : List Char} {c : Char} {quotes : Nat}

@[simp] lemma run_nil (p : Position) : run p [] = some p := rfl

lemma run_cons (p : Position) (c : Char) (text : List Char) :
    run p (c :: text) = (step p c).bind (run · text) := List.foldlM_cons

lemma run_append (p : Position) (text others : List Char) :
    run p (text ++ others) = (run p text).bind (run · others) := List.foldlM_append

lemma run_of_run {text : List Char} (h : run p text = some p') (others : List Char) :
    run p (text ++ others) = run p' others := by
  rw [run_append, h, Option.bind_some]

lemma step_eq_some_of_ne (hquote : c ≠ '"') (hbackslash : c ≠ '\\') (h : step p c = some p') :
    ∃ quotes, p = after quotes ∧ p' = after 0 := by
  cases p with
  | after quotes =>
    rw [step, if_neg hquote, if_neg hbackslash] at h
    exact ⟨quotes, rfl, (Option.some.inj h).symm⟩
  | escaped =>
    rw [step, if_neg (by simp [hquote, hbackslash])] at h
    cases h

lemma eq_backslash_of_step (h : step p c = some escaped) :
    c = '\\' ∧ ∃ quotes, p = after quotes := by
  cases p with
  | after quotes =>
    rw [step] at h
    split_ifs at h with _ _ hbackslash
    · cases h
    · exact ⟨hbackslash, quotes, rfl⟩
    · cases h
  | escaped =>
    rw [step] at h
    split_ifs at h
    cases h

lemma eq_escaped_of_step (h : step p '\\' = some (after quotes)) : p = escaped := by
  cases p with
  | after => cases h
  | escaped => rfl

lemma eq_zero_of_step (hquote : c ≠ '"') (h : step p c = some (after quotes)) : quotes = 0 := by
  cases p with
  | after =>
    rw [step, if_neg hquote] at h
    split_ifs at h <;> cases h
    rfl
  | escaped =>
    rw [step] at h
    split_ifs at h
    cases h
    rfl

lemma run_cons_of_ne (hquote : c ≠ '"') (hbackslash : c ≠ '\\') (quotes : Nat)
    (text : List Char) : run (after quotes) (c :: text) = run (after 0) text := by
  rw [run_cons, step, if_neg hquote, if_neg hbackslash, Option.bind_some]

/-- A body is cut at a character that is neither a quote nor a backslash into two others. -/
lemma exists_run_of_ne (hquote : c ≠ '"') (hbackslash : c ≠ '\\')
    (h : run p (text ++ c :: others) = some p') :
    (∃ quotes, run p text = some (after quotes)) ∧ run (after 0) others = some p' := by
  rw [run_append] at h
  obtain ⟨q, htext, h⟩ := Option.bind_eq_some_iff.mp h
  rw [run_cons] at h
  obtain ⟨q', hstep, hothers⟩ := Option.bind_eq_some_iff.mp h
  obtain ⟨quotes, rfl, rfl⟩ := step_eq_some_of_ne hquote hbackslash hstep
  exact ⟨⟨quotes, htext⟩, hothers⟩

lemma run_concat {p' : Position} (h : run p (text ++ [c]) = some p') :
    ∃ q, run p text = some q ∧ step q c = some p' := by
  rw [run_append] at h
  obtain ⟨q, htext, h⟩ := Option.bind_eq_some_iff.mp h
  rw [run_cons] at h
  obtain ⟨q', hstep, hnil⟩ := Option.bind_eq_some_iff.mp h
  exact ⟨q, htext, hnil ▸ hstep⟩

/-- A body is left after a backslash only by that backslash. -/
lemma exists_eq_concat_of_run_escaped (h : run p text = some escaped) (hp : p ≠ escaped) :
    ∃ front quotes, text = front ++ ['\\'] ∧ run p front = some (after quotes) := by
  rcases text.eq_nil_or_concat with rfl | ⟨front, c, rfl⟩
  · exact absurd (Option.some.inj h) hp
  · rw [List.concat_eq_append] at h ⊢
    obtain ⟨q, hfront, hc⟩ := run_concat h
    obtain ⟨rfl, quotes, rfl⟩ := eq_backslash_of_step hc
    exact ⟨front, quotes, rfl, hfront⟩

lemma run_escaped (hc : c = '"' ∨ c = '\\') (quotes : Nat) (text : List Char) :
    run (after quotes) ('\\' :: c :: text) = run (after 0) text := by
  rw [run_cons, step, if_neg (by decide), if_pos rfl, Option.bind_some, run_cons, step, if_pos hc,
    Option.bind_some]

/-- After a backslash there is another one, or a quote. -/
lemma exists_eq_cons_of_run_escaped (h : run escaped text = some (after quotes)) :
    ∃ c rest, text = c :: rest ∧ (c = '"' ∨ c = '\\') ∧
      run (after 0) rest = some (after quotes) := by
  cases text with
  | nil => cases h
  | cons c rest =>
    rw [run_cons] at h
    obtain ⟨q, hstep, hrest⟩ := Option.bind_eq_some_iff.mp h
    rw [step] at hstep
    split_ifs at hstep with hc
    cases hstep
    exact ⟨c, rest, rfl, hc, hrest⟩

/-- What holds of all bodies: it holds of the empty one, and it goes from the rest of a body on to
the body, whether this starts with a bare quote, with an escape or with another character. -/
lemma run_induction {last : Nat} {motive : Nat → List Char → Prop} (nil : motive last [])
    (quote : ∀ quotes rest, run (after (quotes + 1)) rest = some (after last) →
      motive (quotes + 1) rest → motive quotes ('"' :: rest))
    (escape : ∀ quotes c rest, c = '"' ∨ c = '\\' → motive 0 rest →
      motive quotes ('\\' :: c :: rest))
    (plain : ∀ quotes c rest, c ≠ '"' → c ≠ '\\' → motive 0 rest → motive quotes (c :: rest))
    (h : run (after quotes) text = some (after last)) : motive quotes text := by
  induction hlength : text.length using Nat.strongRecOn generalizing text quotes with
  | ind n ih =>
    cases text with
    | nil =>
      cases h
      exact nil
    | cons c rest =>
      rw [List.length_cons] at hlength
      by_cases hquote : c = '"'
      · subst hquote
        rw [run_cons, step, if_pos rfl] at h
        split_ifs at h
        · exact quote _ _ h (ih _ (by omega) h rfl)
        · cases h
      · by_cases hbackslash : c = '\\'
        · subst hbackslash
          rw [run_cons, step, if_neg hquote, if_pos rfl, Option.bind_some] at h
          obtain ⟨d, rest, rfl, hd, hrest⟩ := exists_eq_cons_of_run_escaped h
          rw [List.length_cons] at hlength
          exact escape _ _ _ hd (ih _ (by omega) hrest rfl)
        · rw [run_cons_of_ne hquote hbackslash] at h
          exact plain _ _ _ hquote hbackslash (ih _ (by omega) h rfl)

/-- After a bare quote there are no further two. -/
lemma ne_quotes_of_run {tail : List Char} {last : Nat}
    (h : run (after (quotes + 1)) text = some (after last))
    (htail : last = 0 ∨ tail.head? ≠ some '"') (rest : List Char) :
    text ++ tail ≠ '"' :: '"' :: rest := by
  intro heq
  rcases text with _ | ⟨c, _ | ⟨d, text⟩⟩
  · rw [List.nil_append] at heq
    cases h
    exact htail.elim nofun fun htail => htail (by simp [heq])
  · obtain ⟨rfl, rfl⟩ : c = '"' ∧ tail = '"' :: rest := by simpa using heq
    rw [run_cons, step, if_pos rfl] at h
    split_ifs at h
    · cases h
      exact htail.elim nofun fun htail => htail rfl
    · cases h
  · obtain ⟨rfl, rfl, _⟩ : c = '"' ∧ d = '"' ∧ text ++ tail = rest := by simpa using heq
    rw [run_cons, step, if_pos rfl] at h
    split_ifs at h with hquotes
    · rw [Option.bind_some, run_cons, step, if_pos rfl, if_neg (by omega)] at h
      cases h
    · cases h

end Position

open Position

variable {text tail : List Char} {quotes last : Nat}

lemma readBody_escape (c : Char) (rest : List Char) : readBody ('\\' :: c :: rest) =
    (readBody rest).map fun (body, rest) => ('\\' :: c :: body, rest) := by
  rw [readBody]

lemma readBody_cons {c : Char} {rest : List Char} (hbackslash : c ≠ '\\')
    (hquotes : c = '"' → ∀ rest', rest ≠ '"' :: '"' :: rest') : readBody (c :: rest) =
      (readBody rest).map fun (body, rest) => (c :: body, rest) := by
  rw [readBody]
  · rintro rest' rfl rfl
    exact hquotes rfl rest' rfl
  · rintro _ _ rfl
    exact absurd rfl hbackslash

/-- A text without bare marks is read as a part of a body. What comes after it may start with a
quote only if it does not end with a bare one. -/
lemma readBody_append (h : run (after quotes) text = some (after last))
    (htail : last = 0 ∨ tail.head? ≠ some '"') :
    readBody (text ++ tail) =
      (readBody tail).map fun (body, rest) => (text ++ body, rest) := by
  have hcons {c : Char} {rest : List Char}
      (ih : readBody (rest ++ tail) =
        (readBody tail).map fun (body, rest') => (rest ++ body, rest'))
      (hbackslash : c ≠ '\\') (hquotes : c = '"' → ∀ rest', rest ++ tail ≠ '"' :: '"' :: rest') :
      readBody (c :: rest ++ tail) =
        (readBody tail).map fun (body, rest') => (c :: rest ++ body, rest') := by
    rw [List.cons_append, readBody_cons hbackslash hquotes, ih, Option.map_map]
    rfl
  refine run_induction (motive := fun _ text => readBody (text ++ tail) =
    (readBody tail).map fun (body, rest) => (text ++ body, rest)) ?nil ?quote ?escape ?plain h
  case nil => simp
  case quote =>
    intro quotes rest hrest ih
    exact hcons ih (by decide) fun _ => ne_quotes_of_run hrest htail
  case escape =>
    intro quotes c rest _ ih
    rw [List.cons_append, List.cons_append, readBody_escape, ih, Option.map_map]
    rfl
  case plain =>
    intro quotes c rest hquote hbackslash ih
    exact hcons ih hbackslash fun heq => absurd heq hquote

lemma bodyValue?_cons {c : Char} (h : c ≠ '\\') (rest : List Char) :
    bodyValue? (c :: rest) = (bodyValue? rest).map (c :: ·) := by
  rw [bodyValue?]
  · rintro _ _ rfl
    exact absurd rfl h
  · rintro rfl
    exact absurd rfl h

lemma bodyValue?_escape {c : Char} (h : c = '"' ∨ c = '\\') (rest : List Char) :
    bodyValue? ('\\' :: c :: rest) = (bodyValue? rest).map (c :: ·) := by
  rcases h with rfl | rfl <;> rfl

/-- The value of a text without bare marks is put before the value of what comes after it. -/
lemma bodyValue?_append (h : run (after quotes) text = some (after last)) (others : List Char) :
    bodyValue? (text ++ others) =
      (bodyValue? text).bind fun value => (bodyValue? others).map (value ++ ·) := by
  have hmap (c : Char) (value? : Option (List Char)) :
      (value?.bind fun value => (bodyValue? others).map (value ++ ·)).map (c :: ·) =
        (value?.map (c :: ·)).bind fun value => (bodyValue? others).map (value ++ ·) := by
    cases value? <;> simp [Function.comp_def]
  refine run_induction (motive := fun _ text => bodyValue? (text ++ others) =
    (bodyValue? text).bind fun value => (bodyValue? others).map (value ++ ·))
    ?nil ?quote ?escape ?plain h
  case nil => simp [bodyValue?]
  case quote =>
    intro quotes rest _ ih
    rw [List.cons_append, bodyValue?_cons (by decide), bodyValue?_cons (by decide), ih, hmap]
  case escape =>
    intro quotes c rest hc ih
    rw [List.cons_append, List.cons_append, bodyValue?_escape hc, bodyValue?_escape hc, ih, hmap]
  case plain =>
    intro quotes c rest _ hbackslash ih
    rw [List.cons_append, bodyValue?_cons hbackslash, bodyValue?_cons hbackslash, ih, hmap]

end RegisterMap.Accessor.Docstring
