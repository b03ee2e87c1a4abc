import RegisterMap.Proofs.RangeText

/-!
# The grammar of bit ranges

A text denotes a bit range if it is a bit number, or if it is two of them with a colon between, the
higher one in front. Reading gives what such a text denotes, and accepts no others, and the strict
reader is the one that wants the two bit numbers to differ. A bit number of very many digits is not
read, although with zeros in front it denotes a bit. The text of a range denotes this range and no
other one.
-/

namespace RegisterMap.BitRange

variable {part digits : List Char} {text : String} {strict : Bool} {bit : Nat} {r s : BitRange}

/-! ### Bit numbers -/

/-- Decimal digits, perhaps before a final line feed, that denote a number up to the bound. -/
def DenotesBit (part : List Char) (bit : Nat) : Prop :=
  ∃ digits : List Char, (part = digits ∨ part = digits ++ ['\n']) ∧ digits ≠ [] ∧
    (∀ c ∈ digits, c.isDigit = true) ∧ Nat.ofDigitChars 10 digits 0 = bit ∧ bit ≤ 65535

/-- A text with no more digits than are read as one number. -/
def HasFewDigits (part : List Char) : Prop := part.countP Char.isDigit ≤ 4300

lemma isBitNumber_iff : isBitNumber part = true ↔
    Text.beforeFinalBreak part ≠ [] ∧
      ∀ c ∈ Text.beforeFinalBreak part, c.isDigit = true := by
  simp [isBitNumber]

/-- A final line feed is no digit. -/
lemma countP_eq_length (hpart : part = digits ∨ part = digits ++ ['\n'])
    (hdigits : ∀ c ∈ digits, c.isDigit = true) : part.countP Char.isDigit = digits.length := by
  have hall : digits.countP Char.isDigit = digits.length := List.countP_eq_length.mpr hdigits
  rcases hpart with rfl | rfl
  · exact hall
  · rw [List.countP_append, hall]
    rfl

lemma beforeFinalBreak_eq (hpart : part = digits ∨ part = digits ++ ['\n'])
    (hdigits : ∀ c ∈ digits, c.isDigit = true) : Text.beforeFinalBreak part = digits := by
  rcases hpart with rfl | rfl
  · exact Text.beforeFinalBreak_of_not_mem (Numeral.not_mem_of_forall_isDigit rfl hdigits)
  · exact Text.beforeFinalBreak_concat digits

/-- What comes of digits: their count is looked at first, and then the number that they denote. -/
lemma readBitNumber_of_digits (hpart : part = digits ∨ part = digits ++ ['\n'])
    (hne : digits ≠ []) (hdigits : ∀ c ∈ digits, c.isDigit = true) :
    readBitNumber part =
      if Numeral.maxDigits < digits.length then .error (.tooManyDigits digits.length)
      else if maxBitNumber < Nat.ofDigitChars 10 digits 0 then
        .error (.bitNumberTooLarge (String.ofList part))
      else .ok (Nat.ofDigitChars 10 digits 0) := by
  have hbefore := beforeFinalBreak_eq hpart hdigits
  have hnumber : isBitNumber part = true := isBitNumber_iff.mpr (hbefore.symm ▸ ⟨hne, hdigits⟩)
  rw [readBitNumber, if_pos hnumber, hbefore, ← Numeral.value_eq_ofDigitChars hdigits]

/-- A bit number is read exactly if it denotes a bit and does not have too many digits. -/
lemma readBitNumber_eq_ok_iff :
    readBitNumber part = .ok bit ↔ DenotesBit part bit ∧ HasFewDigits part := by
  constructor
  · intro h
    by_cases hnumber : isBitNumber part = true
    · obtain ⟨hne, hdigits⟩ := isBitNumber_iff.mp hnumber
      have hpart := Text.eq_beforeFinalBreak_or part
      rw [readBitNumber_of_digits hpart hne hdigits] at h
      split_ifs at h with hlong hbound
      cases h
      refine ⟨⟨_, hpart, hne, hdigits, rfl, Nat.le_of_not_lt hbound⟩, ?_⟩
      rw [HasFewDigits, countP_eq_length hpart hdigits]
      exact Nat.le_of_not_lt hlong
    · rw [readBitNumber, if_neg hnumber] at h
      cases h
  · rintro ⟨⟨digits, hpart, hne, hdigits, rfl, hbound⟩, hfew⟩
    rw [HasFewDigits, countP_eq_length hpart hdigits] at hfew
    have hshort : ¬Numeral.maxDigits < digits.length := Nat.not_lt_of_le hfew
    have hsmall : ¬maxBitNumber < Nat.ofDigitChars 10 digits 0 := Nat.not_lt_of_le hbound
    rw [readBitNumber_of_digits hpart hne hdigits, if_neg hshort, if_neg hsmall]

/-- There is no colon in a bit number. -/
lemma DenotesBit.colon_not_mem (h : DenotesBit part bit) : ':' ∉ part := by
  obtain ⟨digits, hpart, _, hdigits, _⟩ := h
  have hfree : ':' ∉ digits := Numeral.not_mem_of_forall_isDigit rfl hdigits
  rcases hpart with rfl | rfl
  · exact hfree
  · simpa using hfree

/-! ### Ranges -/

/-- A bit number denotes the range of this bit, and two bit numbers with a colon between denote the
range from the second one up to the first one. To be strict is to refuse a single bit that is
written as a range. -/
inductive Denotes (strict : Bool) : List Char → BitRange → Prop
  | single {part : List Char} {bit : Nat} (h : DenotesBit part bit) :
      Denotes strict part (.single bit)
  | range {high low : List Char} {r : BitRange} (hmsb : DenotesBit high r.msb)
      (hlsb : DenotesBit low r.lsb) (hstrict : strict = true → r.lsb < r.msb) :
      Denotes strict (high ++ ':' :: low) r

/-- What is denoted strictly is denoted. -/
lemma Denotes.of_strict {chars : List Char} (h : Denotes true chars r) : Denotes strict chars r := by
  cases h with
  | single h => exact .single h
  | range hmsb hlsb hstrict => exact .range hmsb hlsb fun _ => hstrict rfl

private lemma exists_of_bind_eq_ok {α β : Type} {x : Except Error α} {f : α → Except Error β}
    {b : β} (h : x >>= f = .ok b) : ∃ a, x = .ok a ∧ f a = .ok b := by
  cases x with
  | error e => cases h
  | ok a => exact ⟨a, rfl, h⟩

lemma toList_eq_of_splitOn {pieces : List (List Char)} (h : text.toList.splitOn ':' = pieces) :
    text.toList = [':'].intercalate pieces := by
  rw [← h, List.intercalate_splitOn]

/-- Reading accepts exactly the texts that denote a range in numbers of few digits, and gives this
range. -/
lemma read_eq_ok_iff : read text strict = .ok r ↔
    Denotes strict text.toList r ∧ ∀ part ∈ text.toList.splitOn ':', HasFewDigits part := by
  constructor
  · intro h
    unfold read at h
    split at h
    next part hsplit =>
      obtain ⟨bit, hbit, hr⟩ := exists_of_bind_eq_ok h
      cases hr
      obtain ⟨hbit, hfew⟩ := readBitNumber_eq_ok_iff.mp hbit
      rw [hsplit, List.forall_mem_singleton, toList_eq_of_splitOn hsplit,
        List.intercalate_singleton]
      exact ⟨.single hbit, hfew⟩
    next high low hsplit =>
      have htext : text.toList = high ++ ':' :: low := by
        simpa using toList_eq_of_splitOn hsplit
      obtain ⟨msb, hmsb, h⟩ := exists_of_bind_eq_ok h
      obtain ⟨lsb, hlsb, h⟩ := exists_of_bind_eq_ok h
      split_ifs at h with hreversed hredundant
      cases h
      obtain ⟨hmsb, hfewHigh⟩ := readBitNumber_eq_ok_iff.mp hmsb
      obtain ⟨hlsb, hfewLow⟩ := readBitNumber_eq_ok_iff.mp hlsb
      rw [hsplit, htext]
      refine ⟨.range hmsb hlsb fun hstrict => ?_, by simp [hfewHigh, hfewLow]⟩
      dsimp only
      have hne : msb ≠ lsb := fun heq => hredundant ⟨heq, hstrict⟩
      omega
    next => cases h
  · rintro ⟨h, hfew⟩
    generalize hchars : text.toList = chars at h hfew
    cases h with
    | single hbit =>
      rw [List.splitOn_eq_singleton hbit.colon_not_mem, List.forall_mem_singleton] at hfew
      rw [read, hchars, List.splitOn_eq_singleton hbit.colon_not_mem]
      simp only [readBitNumber_eq_ok_iff.mpr ⟨hbit, hfew⟩]
      rfl
    | @range high low r hmsb hlsb hstrict =>
      have hle := r.lsb_le_msb
      have hsplit := splitOn_append_colon hmsb.colon_not_mem hlsb.colon_not_mem
      obtain ⟨hfewHigh, hfewLow⟩ : HasFewDigits high ∧ HasFewDigits low := by
        simpa [hsplit] using hfew
      rw [read, hchars, hsplit]
      simp only [readBitNumber_eq_ok_iff.mpr ⟨hmsb, hfewHigh⟩,
        readBitNumber_eq_ok_iff.mpr ⟨hlsb, hfewLow⟩, bind, Except.bind]
      rw [dif_neg (by omega), if_neg]
      · rfl
      · rintro ⟨heq, hs⟩
        have := hstrict hs
        omega

/-- The text of a range is that of no other range. -/
lemma text_injective : Function.Injective BitRange.text := by
  intro r s h
  have hsplit := splitOn_toList_text r
  rw [h, splitOn_toList_text s] at hsplit
  have hr := r.lsb_le_msb
  have hs := s.lsb_le_msb
  -- The count of its pieces tells whether a text is that of a single bit.
  have heq : r.msb = s.msb ∧ r.lsb = s.lsb := by
    simp only [isSingle, beq_iff_eq] at hsplit
    split_ifs at hsplit with hsingle' hsingle hsingle
    · have hmsb := Numeral.eq_of_toDigits_eq (List.singleton_inj.mp hsplit)
      omega
    · simp at hsplit
    · simp at hsplit
    · obtain ⟨hmsb, hlsb⟩ := List.cons_eq_cons.mp hsplit
      have hlsb := Numeral.eq_of_toDigits_eq (List.singleton_inj.mp hlsb)
      exact ⟨(Numeral.eq_of_toDigits_eq hmsb).symm, hlsb.symm⟩
  rwa [← mk.injEq r.msb r.lsb hr s.msb s.lsb hs] at heq

/-! ### Zeros -/

lemma isDigit_of_mem_zeros {count : Nat} : ∀ c ∈ List.replicate count '0', c.isDigit = true := by
  intro c hc
  rw [List.eq_of_mem_replicate hc]
  rfl

lemma ofDigitChars_zeros (count : Nat) :
    Nat.ofDigitChars 10 (List.replicate count '0') 0 = 0 := by
  induction count with
  | zero => rfl
  | succ count ih => exact ih

/-- Any count of zeros denotes the lowest bit. -/
lemma denotesBit_zeros {count : Nat} (h : 0 < count) : DenotesBit (List.replicate count '0') 0 :=
  ⟨_, .inl rfl, by simpa using Nat.ne_zero_of_lt h, isDigit_of_mem_zeros, ofDigitChars_zeros count,
    Nat.zero_le _⟩

/-- More zeros than may be read are refused with their count. -/
lemma read_zeros {count : Nat} (h : Numeral.maxDigits < count) (strict : Bool) :
    read (String.ofList (List.replicate count '0')) strict = .error (.tooManyDigits count) := by
  have hdenotes := denotesBit_zeros (Nat.zero_lt_of_lt h)
  have hrefused : readBitNumber (List.replicate count '0') = .error (.tooManyDigits count) := by
    rw [readBitNumber_of_digits (.inl rfl) (by simpa using Nat.ne_zero_of_lt h)
      isDigit_of_mem_zeros, List.length_replicate]
    exact if_pos h
  rw [read, String.toList_ofList, List.splitOn_eq_singleton hdenotes.colon_not_mem]
  simp only [hrefused]
  rfl

/-! ### Reading -/

/-- A text is read as a range if and only if it denotes this range and none of its bit numbers has
too many digits, and is refused if and only if this is so for no range. What the strict reader
accepts is read by the other one as the same range. The text of a range that ends at or below the
bound is read by both as this range, and no other range has it. -/
theorem read_decides :
    (∀ text strict,
      (∀ r, read text strict = .ok r ↔
        Denotes strict text.toList r ∧ ∀ part ∈ text.toList.splitOn ':', HasFewDigits part) ∧
      ((∃ e, read text strict = .error e) ↔ ∀ r,
        ¬ (Denotes strict text.toList r ∧ ∀ part ∈ text.toList.splitOn ':', HasFewDigits part))) ∧
    (∀ text r, read text true = .ok r → read text false = .ok r) ∧
    (∀ r : BitRange, r.msb ≤ 65535 → ∀ strict, read r.text strict = .ok r) ∧
    Function.Injective BitRange.text := by
  refine ⟨fun text strict => ⟨fun r => read_eq_ok_iff, ?_⟩, ?_, fun r => read_text, text_injective⟩
  · simp only [← read_eq_ok_iff]
    cases read text strict with
    | ok r => simp
    | error e => simp
  · intro text r h
    rw [read_eq_ok_iff] at h ⊢
    exact ⟨h.1.of_strict, h.2⟩

/-- A range with leading zeros and line feeds, and the highest bit that has a text. -/
theorem read_decides_padded :
    read "007\n:4\n" true = .ok ⟨7, 4, by omega⟩ ∧
      Denotes true "007\n:4\n".toList ⟨7, 4, by omega⟩ ∧
      read "007\n:4\n" false = .ok ⟨7, 4, by omega⟩ ∧
      (single 65535).msb ≤ 65535 ∧ read (single 65535).text true = .ok (single 65535) := by
  have hread : read "007\n:4\n" true = .ok ⟨7, 4, by omega⟩ := by decide
  have hbound : (single 65535).msb ≤ 65535 := by decide
  obtain ⟨hdecides, hagree, hback, _⟩ := read_decides
  exact ⟨hread, (((hdecides _ _).1 _).mp hread).1, hagree _ _ hread, hbound, hback _ hbound true⟩

/-- Zeros denote the lowest bit, but one more of them than may be read is refused. -/
theorem read_zeros_refused :
    Denotes true (List.replicate 4301 '0') (single 0) ∧
      read (String.ofList (List.replicate 4301 '0')) true = .error (.tooManyDigits 4301) ∧
      Denotes false (List.replicate 4301 '0') (single 0) ∧
      read (String.ofList (List.replicate 4301 '0')) false = .error (.tooManyDigits 4301) := by
  have hlong : Numeral.maxDigits < 4301 := by
    unfold Numeral.maxDigits
    omega
  have hdenotes : DenotesBit (List.replicate 4301 '0') 0 := denotesBit_zeros (by omega)
  exact ⟨.single hdenotes, read_zeros hlong true, .single hdenotes, read_zeros hlong false⟩

end RegisterMap.BitRange
