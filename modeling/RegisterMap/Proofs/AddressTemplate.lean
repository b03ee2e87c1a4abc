import Mathlib.Data.List.Induction
import RegisterMap.Model.AddressTemplate
import RegisterMap.Proofs.Numeral

/-!
# Address templates found again

Two addresses that come of a template have a template. It is that template with the digits of the
addresses, so it gives the same two addresses, which are different.
-/

namespace RegisterMap.AddressTemplate

open Numeral

/-! ### Digits -/

lemma digitValue_lt {c : Char} (h : isHexDigit c = true) : digitValue c < 16 := by
  rw [digitValue]
  by_cases hdigit : c.isDigit = true
  · rw [if_pos hdigit]
    simp only [Char.isDigit, Bool.and_eq_true, decide_eq_true_eq] at hdigit
    have hle : c.toNat ≤ 57 := hdigit.2
    omega
  · rw [if_neg hdigit]
    simp only [isHexDigit, hdigit, Bool.false_or, Bool.or_eq_true, Bool.and_eq_true,
      decide_eq_true_eq] at h
    by_cases hlower : 'a' ≤ c
    · have hle : c.toNat ≤ 102 := by
        rcases h with h | h
        · exact h.2
        · exact le_trans (show c.toNat ≤ 70 from h.2) (by omega)
      rw [if_pos hlower]
      omega
    · have hle : c.toNat ≤ 70 := (h.resolve_left fun h => hlower h.1).2
      rw [if_neg hlower]
      omega

lemma value_concat (digits : List Char) (c : Char) :
    value 16 (digits ++ [c]) = 16 * value 16 digits + digitValue c := by
  rw [value, List.foldl_append]
  rfl

/-- The digits of a number, without any for zero. -/
def leadingDigits (n : Nat) : List Char := if n = 0 then [] else hexDigits n

lemma hexDigits_mul_add (n : Nat) {d : Nat} (hd : d < 16) :
    hexDigits (16 * n + d) = leadingDigits n ++ [d.digitChar] := by
  unfold leadingDigits hexDigits
  split_ifs with hn
  · rw [hn, Nat.mul_zero, Nat.zero_add, Nat.toDigits_of_lt_base hd]
    rfl
  · rw [Nat.toDigits_of_base_le (by omega) (by omega)]
    congr 2 <;> congr 1 <;> omega

lemma value_leadingDigits (n : Nat) : value 16 (leadingDigits n) = n := by
  unfold leadingDigits
  split_ifs with hn
  · exact hn.symm
  · exact value_toDigits (by omega) le_rfl n

lemma isHexDigit_of_mem_leadingDigits {n : Nat} {c : Char} (h : c ∈ leadingDigits n) :
    isHexDigit c = true := by
  unfold leadingDigits at h
  split_ifs at h with hn
  · cases h
  · exact isHexDigit_of_mem_toDigits (by omega) le_rfl h

/-! ### Merging -/

lemma merge_self (digits : List Char) : merge digits digits = none := by
  induction digits with
  | nil => rfl
  | cons c digits ih => rw [merge, if_pos rfl, ih, Option.map_none]

/-- Numerals are merged exactly if they agree but for one place, with the read digit there in the
first and the write digit in the second one. -/
lemma merge_eq_some_iff {rs ws digits : List Char} :
    merge rs ws = some digits ↔ ∃ front r w back, rs = front ++ r :: back ∧
      ws = front ++ w :: back ∧ digits = front ++ placeholder :: back ∧
      r.toUpper = readDigit ∧ w.toUpper = writeDigit := by
  constructor
  · intro h
    induction rs generalizing ws digits with
    | nil => cases ws <;> cases h
    | cons r rs ih =>
      cases ws with
      | nil => cases h
      | cons w ws =>
        rw [merge] at h
        split_ifs at h with heq hmarks
        · obtain ⟨others, hothers, rfl⟩ := Option.map_eq_some_iff.mp h
          obtain ⟨front, r', w', back, rfl, rfl, rfl, hread, hwrite⟩ := ih hothers
          exact ⟨r :: front, r', w', back, rfl, heq ▸ rfl, rfl, hread, hwrite⟩
        · obtain ⟨hread, hwrite, rfl⟩ := hmarks
          exact ⟨[], r, w, rs, rfl, rfl, (Option.some.inj h).symm, hread, hwrite⟩
  · rintro ⟨front, r, w, back, rfl, rfl, rfl, hread, hwrite⟩
    induction front with
    | nil =>
      have hne : r ≠ w := by
        rintro rfl
        exact absurd (hread.symm.trans hwrite) (by decide)
      rw [List.nil_append, List.nil_append, merge, if_neg hne, if_pos ⟨hread, hwrite, rfl⟩]
      rfl
    | cons c front ih =>
      rw [List.cons_append, List.cons_append, merge, if_pos rfl, ih]
      rfl

/-- A digit after the placeholder is the same in both numerals. -/
lemma merge_concat {rs ws digits : List Char} (h : merge rs ws = some digits) (c : Char) :
    merge (rs ++ [c]) (ws ++ [c]) = some (digits ++ [c]) := by
  obtain ⟨front, r, w, back, rfl, rfl, rfl, hread, hwrite⟩ := merge_eq_some_iff.mp h
  exact merge_eq_some_iff.mpr
    ⟨front, r, w, back ++ [c], by simp, by simp, by simp, hread, hwrite⟩

lemma merge_common (digits : List Char) :
    merge (digits ++ ['c']) (digits ++ ['d']) = some (digits ++ [placeholder]) :=
  merge_eq_some_iff.mpr ⟨digits, 'c', 'd', [], rfl, rfl, rfl, rfl, rfl⟩

/-! ### Templates -/

/-- Whether digits with one placeholder stand for a read address and a write address. -/
structure StandsFor (digits : List Char) (read write : Nat) : Prop where
  count_eq : digits.count placeholder = 1
  forall_mem : ∀ c ∈ digits, c = placeholder ∨ isHexDigit c = true
  read_eq : address digits readDigit = read
  write_eq : address digits writeDigit = write

lemma ne_placeholder {c : Char} (h : isHexDigit c = true) : c ≠ placeholder := by
  rintro rfl
  cases h

lemma address_concat (digits : List Char) {c : Char} (h : c ≠ placeholder) (digit : Char) :
    address (digits ++ [c]) digit = 16 * address digits digit + digitValue c := by
  rw [address, List.map_append, List.map_singleton, if_neg h, value_concat]
  rfl

lemma address_concat_placeholder {digits : List Char} (h : placeholder ∉ digits) (digit : Char) :
    address (digits ++ [placeholder]) digit = 16 * value 16 digits + digitValue digit := by
  have hmap : digits.map (fun c => if c = placeholder then digit else c) = digits := by
    rw [List.map_congr_left fun c hc => if_neg (ne_of_mem_of_not_mem hc h)]
    exact List.map_id digits
  rw [address, List.map_append, hmap, List.map_singleton, if_pos rfl, value_concat]

lemma StandsFor.concat {digits : List Char} {read write : Nat} (h : StandsFor digits read write)
    {c : Char} (hc : isHexDigit c = true) :
    StandsFor (digits ++ [c]) (16 * read + digitValue c) (16 * write + digitValue c) where
  count_eq := by
    rw [List.count_append, h.count_eq, List.count_singleton, if_neg (by simp [ne_placeholder hc])]
  forall_mem := List.forall_mem_append.mpr ⟨h.forall_mem, by simp [hc]⟩
  read_eq := by rw [address_concat digits (ne_placeholder hc), h.read_eq]
  write_eq := by rw [address_concat digits (ne_placeholder hc), h.write_eq]

/-- Before and after the placeholder there are hexadecimal digits. -/
lemma StandsFor.exists_eq_append {digits : List Char} {read write : Nat}
    (h : StandsFor digits read write) :
    ∃ front back, digits = front ++ placeholder :: back ∧
      (∀ c ∈ front, isHexDigit c = true) ∧ ∀ c ∈ back, isHexDigit c = true := by
  obtain ⟨front, back, rfl⟩ := List.append_of_mem
    (List.count_pos_iff.mp (h.count_eq ▸ Nat.one_pos))
  have hcount := h.count_eq
  rw [List.count_append, List.count_cons_self] at hcount
  have hhex (part : List Char) (hpart : part.count placeholder = 0)
      (hsub : ∀ c ∈ part, c ∈ front ++ placeholder :: back) : ∀ c ∈ part, isHexDigit c = true := by
    intro c hc
    refine (h.forall_mem c (hsub c hc)).resolve_left ?_
    rintro rfl
    exact List.count_eq_zero.mp hpart hc
  exact ⟨front, back, rfl, hhex front (by omega) (by simp +contextual),
    hhex back (by omega) (by simp +contextual)⟩

lemma not_mem_of_forall_isHexDigit {digits : List Char} (h : ∀ c ∈ digits, isHexDigit c = true) :
    placeholder ∉ digits := fun hmem => ne_placeholder (h _ hmem) rfl

lemma standsFor_concat_placeholder {digits : List Char} (h : ∀ c ∈ digits, isHexDigit c = true) :
    StandsFor (digits ++ [placeholder]) (16 * value 16 digits + 12)
      (16 * value 16 digits + 13) where
  count_eq := by
    rw [List.count_append, List.count_eq_zero.mpr (not_mem_of_forall_isHexDigit h),
      List.count_singleton_self]
  forall_mem := List.forall_mem_append.mpr ⟨fun c hc => .inr (h c hc), by simp⟩
  read_eq := address_concat_placeholder (not_mem_of_forall_isHexDigit h) readDigit
  write_eq := address_concat_placeholder (not_mem_of_forall_isHexDigit h) writeDigit

/-- The addresses of a template are merged into a template for them. -/
lemma exists_merge_eq_some {front : List Char} (hfront : ∀ c ∈ front, isHexDigit c = true)
    (back : List Char) (hback : ∀ c ∈ back, isHexDigit c = true) :
    ∃ read write digits, 0 < read ∧ 0 < write ∧
      StandsFor (front ++ placeholder :: back) read write ∧
      StandsFor digits read write ∧ merge (hexDigits read) (hexDigits write) = some digits := by
  -- From the placeholder on, each further digit is the last one of both addresses.
  induction back using List.reverseRecOn with
  | nil =>
    have hleading := standsFor_concat_placeholder fun c hc =>
      isHexDigit_of_mem_leadingDigits (n := value 16 front) hc
    rw [value_leadingDigits] at hleading
    refine ⟨_, _, _, by omega, by omega, standsFor_concat_placeholder hfront, hleading, ?_⟩
    rw [hexDigits_mul_add _ (by omega), hexDigits_mul_add _ (by omega)]
    exact merge_common _
  | append_singleton back c ih =>
    obtain ⟨hback, hc⟩ := List.forall_mem_append.mp hback
    have hc := hc c (List.mem_singleton_self c)
    obtain ⟨read, write, digits, hread, hwrite, hfrom, hto, hmerge⟩ := ih hback
    have hlt := digitValue_lt hc
    have hstands := hto.concat (isHexDigit_digitChar hlt)
    rw [digitValue_digitChar hlt] at hstands
    have hsource := hfrom.concat hc
    rw [List.append_assoc, List.cons_append] at hsource
    refine ⟨_, _, _, by omega, by omega, hsource, hstands, ?_⟩
    rw [hexDigits_mul_add _ hlt, hexDigits_mul_add _ hlt, leadingDigits, leadingDigits,
      if_neg hread.ne', if_neg hwrite.ne']
    exact merge_concat hmerge _

/-! ### Texts of templates -/

lemma count_withoutBaseMark (text : List Char) :
    (withoutBaseMark text).count placeholder = text.count placeholder := by
  unfold withoutBaseMark
  split
  · rw [List.count_cons_of_ne (by decide), List.count_cons_of_ne (by decide)]
  · rw [List.count_cons_of_ne (by decide), List.count_cons_of_ne (by decide)]
  · rfl

lemma count_beforeFinalBreak (text : List Char) :
    (Text.beforeFinalBreak text).count placeholder = text.count placeholder := by
  rcases Text.eq_beforeFinalBreak_or text with htext | htext
  · rw [← htext]
  · conv_rhs => rw [htext, List.count_append, List.count_singleton]
    rfl

lemma expand_eq_ok_iff {template : String} {read write : Nat} :
    expand template = .ok (read, write) ↔ StandsFor (digits template) read write := by
  have hcount : template.toList.count placeholder = (digits template).count placeholder := by
    rw [digits, count_withoutBaseMark, count_beforeFinalBreak]
  have hdigits : ((digits template).all fun c => c = placeholder || isHexDigit c) = true ↔
      ∀ c ∈ digits template, c = placeholder ∨ isHexDigit c = true := by
    simp
  unfold expand
  dsimp only
  constructor
  · intro h
    split_ifs at h with hmark hall
    obtain ⟨hread, hwrite⟩ := Prod.mk.inj (Except.ok.inj h)
    exact ⟨by rw [← hcount]; simpa using hmark, hdigits.mp hall, hread, hwrite⟩
  · intro h
    rw [if_neg (by simp [hcount, h.count_eq]), if_pos (hdigits.mpr h.forall_mem), h.read_eq,
      h.write_eq]

/-- Digits with a placeholder are those of the template that they make after a base mark. -/
lemma digits_eq {text : List Char} (h : ∀ c ∈ text, c = placeholder ∨ isHexDigit c = true) :
    digits ("0x" ++ String.ofList text) = text := by
  have hfree : '\n' ∉ '0' :: 'x' :: text := by
    intro hmem
    simp only [List.mem_cons] at hmem
    rcases hmem with heq | heq | hmem
    · cases heq
    · cases heq
    · exact (h _ hmem).elim (by decide) (by decide)
  have htext : ("0x" ++ String.ofList text).toList = '0' :: 'x' :: text := by simp
  rw [digits, htext, Text.beforeFinalBreak_of_not_mem hfree]
  rfl

/-- Addresses that come of a template have a template that gives them, and they are different. -/
lemma exists_ofAddresses_of_expand {template : String} {read write : Nat}
    (h : expand template = .ok (read, write)) :
    read ≠ write ∧ ∃ digits, ofAddresses read write = .ok ("0x" ++ String.ofList digits) ∧
      StandsFor digits read write := by
  have hstands := expand_eq_ok_iff.mp h
  obtain ⟨front, back, hdigits, hfront, hback⟩ := hstands.exists_eq_append
  obtain ⟨read', write', digits, _, _, hsource, hmade, hmerge⟩ :=
    exists_merge_eq_some hfront back hback
  rw [← hdigits] at hsource
  obtain rfl : read' = read := hsource.read_eq.symm.trans hstands.read_eq
  obtain rfl : write' = write := hsource.write_eq.symm.trans hstands.write_eq
  refine ⟨?_, digits, ?_, hmade⟩
  · rintro rfl
    rw [merge_self] at hmerge
    cases hmerge
  · have hsigned (n : Nat) : signedHex n = hexDigits n := if_neg (by omega)
    rw [ofAddresses, hsigned, hsigned, hmerge]

end RegisterMap.AddressTemplate
