import RegisterMap.Fragment.Basic
import RegisterMap.Proofs.Numeral
import RegisterMap.Proofs.Toml.Text
import RegisterMap.Toml.Value

/-!
# Written literals read back

A literal is read as the value that it denotes if a space, a comma or a line feed follows. The
digits of a number cannot be taken for the start of a date or of a time, since no part of these
ends there.
-/

namespace RegisterMap.Toml

/-- Whether a character can follow a literal. No number goes on with it. -/
def EndsLiteral (c : Char) : Prop := c = ' ' ∨ c = ',' ∨ c = '\n'

namespace EndsLiteral

variable {c : Char}

lemma isDigit_eq_false (h : EndsLiteral c) : c.isDigit = false := by
  rcases h with rfl | rfl | rfl <;> rfl

lemma isHexDigit_eq_false (h : EndsLiteral c) : Numeral.isHexDigit c = false := by
  rcases h with rfl | rfl | rfl <;> rfl

/-- No mark inside of a literal ends it. -/
lemma ne_of_mem (h : EndsLiteral c) {mark : Char}
    (hmark : mark ∈ ['_', '.', 'e', 'E', '-', ':', 'x', 'o', 'b', '"']) : c ≠ mark := by
  rintro rfl
  rcases h with rfl | rfl | rfl <;> simp at hmark

end EndsLiteral

/-! ### Digits -/

section Digits

variable {isDigit : Char → Bool} {digits rest : List Char} {c : Char}

lemma moreDigits_append (h : ∀ d ∈ digits, isDigit d = true) (hc : isDigit c = false)
    (hmark : c ≠ '_') : moreDigits isDigit (digits ++ c :: rest) = (digits, c :: rest) := by
  induction digits with
  | nil =>
    rw [List.nil_append, moreDigits, if_neg (by simp [hc])]
    intro _ _ heq
    exact absurd heq hmark
  | cons d digits ih =>
    obtain ⟨hd, hdigits⟩ := List.forall_mem_cons.mp h
    rw [List.cons_append, moreDigits.eq_def]
    show (if isDigit d = true then _ else _) = _
    rw [if_pos hd, ih hdigits]

lemma readDigits_append (hne : digits ≠ []) (h : ∀ d ∈ digits, isDigit d = true)
    (hc : isDigit c = false) (hmark : c ≠ '_') :
    readDigits isDigit (digits ++ c :: rest) = some (digits, c :: rest) := by
  obtain ⟨d, ds, rfl⟩ := List.exists_cons_of_ne_nil hne
  obtain ⟨hd, hds⟩ := List.forall_mem_cons.mp h
  rw [List.cons_append, readDigits, if_pos hd, moreDigits_append hds hc hmark]

end Digits

/-! ### Dates and times -/

section Moments

variable {front rest : List Char} {c : Char}

/-- After the first part of a date or of a time there is no mark. -/
lemma readMarkedPart_eq_none (hc : EndsLiteral c) {mark : Char} (hmark : mark ∉ front)
    (hne : c ≠ mark) {width width' maximum maximum' n : Nat} {text : List Char}
    (h : readPart width maximum (front ++ c :: rest) = some (n, text)) :
    readMarkedPart mark width' maximum' text = none := by
  simp only [readPart] at h
  split_ifs at h with hpart
  obtain ⟨hlength, hdigits, _⟩ := hpart
  simp only [Option.some.injEq, Prod.mk.injEq] at h
  obtain ⟨_, rfl⟩ := h
  have hwidth : width ≤ front.length := by
    by_contra hlt
    have hmem : c ∈ (front ++ c :: rest).take width := by
      rw [List.take_append, List.mem_append]
      right
      obtain ⟨k, hk⟩ : ∃ k, width - front.length = k + 1 := ⟨width - front.length - 1, by omega⟩
      rw [hk, List.take_succ_cons]
      exact List.mem_cons_self
    have hdigit := List.all_eq_true.mp hdigits c hmem
    rw [hc.isDigit_eq_false] at hdigit
    cases hdigit
  rw [List.drop_append_of_le_length hwidth]
  cases hdrop : front.drop width with
  | nil => exact if_neg hne
  | cons d ds =>
    have hd : d ∈ front := List.mem_of_mem_drop (hdrop ▸ List.mem_cons_self)
    refine if_neg ?_
    rintro rfl
    exact hmark hd

/-- A text without the marks of dates and times is no moment. -/
lemma readMoment_eq_none (hc : EndsLiteral c) (hdate : '-' ∉ front) (htime : ':' ∉ front)
    (rest : List Char) :
    readMoment (front ++ c :: rest) = none := by
  have hnotDate : readDate (front ++ c :: rest) = none := by
    unfold readDate
    cases h : readPart 4 9999 (front ++ c :: rest) with
    | none => rfl
    | some part =>
      simp only [Option.bind_eq_bind, Option.bind_some,
        readMarkedPart_eq_none hc hdate (hc.ne_of_mem (by simp)) h, Option.bind_none]
  have hnotTime : readTime (front ++ c :: rest) = none := by
    unfold readTime
    cases h : readPart 2 23 (front ++ c :: rest) with
    | none => rfl
    | some part =>
      simp only [Option.bind_eq_bind, Option.bind_some,
        readMarkedPart_eq_none hc htime (hc.ne_of_mem (by simp)) h, Option.bind_none]
  rw [readMoment, hnotDate, hnotTime]
  rfl

end Moments

/-! ### Numbers -/

section Numbers

variable {rest : List Char} {c : Char}

lemma exists_decimal_eq_cons (n : Nat) :
    ∃ d ds, Nat.toDigits 10 n = d :: ds ∧ d.isDigit = true ∧ ∀ e ∈ ds, e.isDigit = true := by
  obtain ⟨d, ds, h⟩ := List.exists_cons_of_ne_nil (Nat.toDigits_ne_nil (n := n) (b := 10))
  refine ⟨d, ds, h, Numeral.isDigit_of_mem_decimal (h ▸ List.mem_cons_self), fun e he => ?_⟩
  exact Numeral.isDigit_of_mem_decimal (h ▸ List.mem_cons_of_mem d he)

/-- Decimal digits are without the mark of a base. -/
lemma readMarked_decimal (n : Nat) (hc : EndsLiteral c) :
    readMarked (Nat.toDigits 10 n ++ c :: rest) = none := by
  obtain ⟨d, ds, h, _, hds⟩ := exists_decimal_eq_cons n
  have hsecond : ∀ mark ∈ ['x', 'o', 'b'], ∀ after, ds ++ c :: rest ≠ mark :: after := by
    intro mark hmark after heq
    have hsub : ['x', 'o', 'b'] ⊆ ['_', '.', 'e', 'E', '-', ':', 'x', 'o', 'b', '"'] := by simp
    cases ds with
    | nil => exact hc.ne_of_mem (hsub hmark) (List.cons.inj heq).1
    | cons e ds =>
      have he := hds e List.mem_cons_self
      rw [(List.cons.inj heq).1] at he
      simp only [List.mem_cons, List.not_mem_nil, or_false] at hmark
      rcases hmark with rfl | rfl | rfl <;> simp at he
  rw [h, List.cons_append]
  unfold readMarked
  split
  next heq => exact absurd (List.cons.inj heq).2 (hsecond 'x' (by simp) _)
  next heq => exact absurd (List.cons.inj heq).2 (hsecond 'o' (by simp) _)
  next heq => exact absurd (List.cons.inj heq).2 (hsecond 'b' (by simp) _)
  next => rfl

lemma readWhole_decimal (n : Nat) (hc : EndsLiteral c) :
    readWhole (Nat.toDigits 10 n ++ c :: rest) = some (Nat.toDigits 10 n, c :: rest) := by
  by_cases hn : n = 0
  · subst hn
    rfl
  · have hhead : (Nat.toDigits 10 n).head? ≠ some '0' := Numeral.head?_toDigits_ne (by omega) hn
    have hread : readDigits Char.isDigit (Nat.toDigits 10 n ++ c :: rest) =
        some (Nat.toDigits 10 n, c :: rest) :=
      readDigits_append Nat.toDigits_ne_nil (fun d hd => Numeral.isDigit_of_mem_decimal hd)
        hc.isDigit_eq_false (hc.ne_of_mem (by simp))
    obtain ⟨d, ds, h, _⟩ := exists_decimal_eq_cons n
    rw [h] at hhead hread ⊢
    rw [← hread, List.cons_append]
    unfold readWhole
    split
    next heq => exact absurd (congrArg some (List.cons.inj heq).1) hhead
    next => rfl

lemma readSign_of_isDigit {d : Char} (hd : d.isDigit = true) (rest : List Char) :
    readSign (d :: rest) = (false, d :: rest) := by
  unfold readSign
  split
  next heq => simp [(List.cons.inj heq).1] at hd
  next heq => simp [(List.cons.inj heq).1] at hd
  next => rfl

lemma readNumber_decimal (n : Nat) (hc : EndsLiteral c) (rest : List Char) :
    readNumber (Nat.toDigits 10 n ++ c :: rest) = some (.integer n, c :: rest) := by
  have hsign : readSign (Nat.toDigits 10 n ++ c :: rest) =
      (false, Nat.toDigits 10 n ++ c :: rest) := by
    obtain ⟨d, ds, h, hd, _⟩ := exists_decimal_eq_cons n
    rw [h]
    exact readSign_of_isDigit hd _
  have hfraction : readFraction (c :: rest) = none := by
    rcases hc with rfl | rfl | rfl <;> rfl
  have hexponent : readExponent (c :: rest) = none := by
    rcases hc with rfl | rfl | rfl <;> rfl
  simp [readNumber, readMarked_decimal n hc, readDecimal, hsign, readWhole_decimal n hc, hfraction,
    hexponent, Numeral.value_toDigits]

lemma readNumber_hexadecimal (n : Nat) (hc : EndsLiteral c) :
    readNumber ('0' :: 'x' :: (Nat.toDigits 16 n ++ c :: rest)) = some (.integer n, c :: rest) := by
  have hread : readDigits Numeral.isHexDigit (Nat.toDigits 16 n ++ c :: rest) =
      some (Nat.toDigits 16 n, c :: rest) :=
    readDigits_append Nat.toDigits_ne_nil
      (fun d hd => Numeral.isHexDigit_of_mem_toDigits (by omega) le_rfl hd) hc.isHexDigit_eq_false
      (hc.ne_of_mem (by simp))
  simp [readNumber, readMarked, hread, readMarked.read, Numeral.value_toDigits]

/-- What starts with a digit is a moment or a number. -/
lemma readScalar_of_isDigit {d : Char} (hd : d.isDigit = true)
    (hmoment : readMoment (d :: rest) = none) {n : Int} {after : List Char}
    (hnumber : readNumber (d :: rest) = some (.integer n, after)) :
    readScalar (d :: rest) = some (.integer n, after) := by
  have hstart {mark : Char} {text : List Char} (heq : d :: rest = mark :: text) :
      mark.isDigit = true := (List.cons.inj heq).1 ▸ hd
  unfold readScalar
  split
  next heq => exact absurd (hstart heq) (by decide)
  next heq => exact absurd (hstart heq) (by decide)
  next heq => exact absurd (hstart heq) (by decide)
  next heq => exact absurd (hstart heq) (by decide)
  next heq => exact absurd (hstart heq) (by decide)
  next heq => exact absurd (hstart heq) (by decide)
  next => rw [hmoment, hnumber]; rfl

end Numbers

/-! ### Texts -/

lemma readScalar_quoted {text : String} (h : ∀ c ∈ text.toList, IsWritable c) {c : Char}
    (hc : EndsLiteral c) (rest : List Char) :
    readScalar ((quoted text).toList ++ c :: rest) = some (.text text, c :: rest) := by
  have hbasic := readBasic_flatMap_escapeChar h (c :: rest)
  have hopening : ∀ after, text.toList.flatMap escapeChar ++ '"' :: c :: rest ≠
      '"' :: '"' :: after := by
    intro after heq
    cases htext : text.toList with
    | nil =>
      rw [htext] at heq
      exact hc.ne_of_mem (by simp) (List.cons.inj (List.cons.inj heq).2).1
    | cons d ds =>
      rw [heq, htext, readBasic_quote] at hbasic
      cases hbasic
  have hcode : (quoted text).toList ++ c :: rest =
      '"' :: (text.toList.flatMap escapeChar ++ '"' :: c :: rest) := by
    simp [toList_quoted]
  rw [hcode]
  unfold readScalar
  split
  next heq => exact absurd (List.cons.inj heq).2 (hopening _)
  next heq =>
    rw [← (List.cons.inj heq).2, hbasic]
    simp [readScalar.ofText]
  next heq => exact absurd (List.cons.inj heq).1 (by decide)
  next heq => exact absurd (List.cons.inj heq).1 (by decide)
  next heq => exact absurd (List.cons.inj heq).1 (by decide)
  next heq => exact absurd (List.cons.inj heq).1 (by decide)
  next hquote _ _ _ _ => exact absurd rfl (hquote _)

/-! ### Literals -/

/-- Whether a literal is read as what it denotes: texts without control characters but tabs and line
feeds are, and numbers that are not negative. -/
def IsReadable : Literal → Prop
  | .text s => ∀ c ∈ s.toList, IsWritable c
  | .decimal n => 0 ≤ n
  | .hexadecimal n => 0 ≤ n
  | .boolean _ => True

section Literals

variable {l : Literal} {c : Char}

lemma toList_code_decimal (n : Nat) : (Literal.decimal n).code.toList = Nat.toDigits 10 n :=
  Numeral.toList_repr n

lemma toList_code_hexadecimal (n : Nat) :
    (Literal.hexadecimal n).code.toList = '0' :: 'x' :: Nat.toDigits 16 n := by
  have hn : ¬ (n : Int) < 0 := by omega
  simp [Literal.code, Numeral.hex, Numeral.hexDigits, if_neg hn]

/-- What a literal starts with is neither space nor a bracket. -/
lemma exists_code_eq_cons (h : IsReadable l) :
    ∃ d ds, l.code.toList = d :: ds ∧ isSpace d = false ∧ d ≠ '[' ∧ d ≠ '{' := by
  cases l with
  | text s =>
    exact ⟨'"', _, toList_quoted s, by decide, by decide, by decide⟩
  | decimal n =>
    obtain ⟨k, rfl⟩ := Int.eq_ofNat_of_zero_le h
    obtain ⟨d, ds, hdigits, hd, _⟩ := exists_decimal_eq_cons k
    refine ⟨d, ds, (toList_code_decimal k).trans hdigits, ?_, ?_, ?_⟩
    · by_contra hspace
      simp only [isSpace, Bool.not_eq_false, Bool.or_eq_true, beq_iff_eq] at hspace
      rcases hspace with rfl | rfl <;> simp at hd
    · rintro rfl
      simp at hd
    · rintro rfl
      simp at hd
  | hexadecimal n =>
    obtain ⟨k, rfl⟩ := Int.eq_ofNat_of_zero_le h
    exact ⟨'0', _, toList_code_hexadecimal k, by decide, by decide, by decide⟩
  | boolean b => cases b <;> exact ⟨_, _, rfl, by decide, by decide, by decide⟩

/-- A literal is read as what it denotes. -/
lemma readScalar_code (h : IsReadable l) (hc : EndsLiteral c) (rest : List Char) :
    readScalar (l.code.toList ++ c :: rest) = some (l.value, c :: rest) := by
  cases l with
  | text s => exact readScalar_quoted h hc rest
  | decimal n =>
    obtain ⟨k, rfl⟩ := Int.eq_ofNat_of_zero_le h
    have hmoment := readMoment_eq_none hc (Numeral.not_mem_decimal rfl k)
      (Numeral.not_mem_decimal rfl k) rest
    have hnumber := readNumber_decimal k hc rest
    obtain ⟨d, ds, hdigits, hd, _⟩ := exists_decimal_eq_cons k
    rw [hdigits] at hmoment hnumber
    have hcode := (toList_code_decimal k).trans hdigits
    rw [hcode]
    exact readScalar_of_isDigit hd hmoment hnumber
  | hexadecimal n =>
    obtain ⟨k, rfl⟩ := Int.eq_ofNat_of_zero_le h
    have hno (mark : Char) (hmark : Numeral.isHexDigit mark = false) (hx : mark ≠ 'x') :
        mark ∉ '0' :: 'x' :: Nat.toDigits 16 k := by
      simp only [List.mem_cons, not_or]
      refine ⟨?_, hx, fun hmem => ?_⟩
      · rintro rfl
        cases hmark
      · rw [Numeral.isHexDigit_of_mem_toDigits (by omega) le_rfl hmem] at hmark
        cases hmark
    have hmoment := readMoment_eq_none hc (hno '-' rfl (by decide)) (hno ':' rfl (by decide)) rest
    rw [toList_code_hexadecimal]
    exact readScalar_of_isDigit rfl hmoment (readNumber_hexadecimal k hc)
  | boolean b => cases b <;> rfl

end Literals

end RegisterMap.Toml
