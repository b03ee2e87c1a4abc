import Mathlib.Data.List.Basic
import Mathlib.Tactic.IntervalCases
import Mathlib.Tactic.Lemma
import RegisterMap.Numeral

/-!
# Numerals read back

The digits of a number denote this number, in any base up to sixteen. They start with a zero only
for zero itself, and with hexadecimal digits for letters they are small.
-/

namespace RegisterMap.Numeral

/-! ### Digits -/

lemma digitValue_digitChar {n : Nat} (h : n < 16) : digitValue n.digitChar = n := by
  interval_cases n <;> rfl

lemma isHexDigit_digitChar {n : Nat} (h : n < 16) : isHexDigit n.digitChar = true := by
  interval_cases n <;> rfl

/-! ### Numbers -/

section Numbers

variable {base : Nat} {c : Char}

/-- What holds of each digit holds of all digits of a number. -/
lemma forall_mem_toDigits {p : Char → Prop} (hbase : 1 < base) (h : ∀ d < base, p d.digitChar)
    (n : Nat) : ∀ c ∈ Nat.toDigits base n, p c := by
  induction n using Nat.strong_induction_on with
  | _ n ih =>
    by_cases hn : n < base
    · rw [Nat.toDigits_of_lt_base hn]
      simpa using h n hn
    · rw [Nat.toDigits_of_base_le hbase (by omega), List.forall_mem_append]
      refine ⟨ih (n / base) (Nat.div_lt_self (by omega) hbase), ?_⟩
      simpa using h (n % base) (Nat.mod_lt n (by omega))

lemma isHexDigit_of_mem_toDigits (hbase : 1 < base) (h16 : base ≤ 16) {n : Nat}
    (hc : c ∈ Nat.toDigits base n) : isHexDigit c = true := by
  refine forall_mem_toDigits (p := fun c => isHexDigit c = true) hbase (fun d hd => ?_) n c hc
  exact isHexDigit_digitChar (by omega)

/-- The digits of a number denote it. -/
lemma value_toDigits (hbase : 1 < base) (h16 : base ≤ 16) (n : Nat) :
    value base (Nat.toDigits base n) = n := by
  induction n using Nat.strong_induction_on with
  | _ n ih =>
    by_cases hn : n < base
    · rw [Nat.toDigits_of_lt_base hn]
      simp [value, digitValue_digitChar (show n < 16 by omega)]
    · have hlast : n % base < 16 := (Nat.mod_lt n (by omega)).trans_le h16
      have hinit := ih (n / base) (Nat.div_lt_self (by omega) hbase)
      rw [value] at hinit
      rw [Nat.toDigits_of_base_le hbase (by omega), value, List.foldl_append, hinit]
      simp only [List.foldl_cons, List.foldl_nil, digitValue_digitChar hlast]
      exact Nat.div_add_mod n base

/-- The digits of a number that is not zero do not start with a zero. -/
lemma head?_toDigits_ne (hbase : 1 < base) {n : Nat} (hn : n ≠ 0) :
    (Nat.toDigits base n).head? ≠ some '0' := by
  induction n using Nat.strong_induction_on with
  | _ n ih =>
    by_cases hlt : n < base
    · rw [Nat.toDigits_of_lt_base hlt]
      simpa [Nat.digitChar_eq_zero] using hn
    · have hdiv : n / base ≠ 0 := (Nat.div_pos (by omega) (by omega)).ne'
      have hinit := ih (n / base) (Nat.div_lt_self (by omega) hbase) hdiv
      obtain ⟨d, ds, hdigits⟩ := List.exists_cons_of_ne_nil (Nat.toDigits_ne_nil (n := n / base))
      rw [hdigits] at hinit
      rw [Nat.toDigits_of_base_le hbase (by omega), hdigits]
      exact hinit

/-! ### Decimal digits -/

lemma isDigit_of_mem_decimal {n : Nat} (hc : c ∈ Nat.toDigits 10 n) : c.isDigit = true :=
  Nat.isDigit_of_mem_toDigits (by omega) (by omega) hc

lemma not_mem_of_forall_isDigit {digits : List Char} (hc : c.isDigit = false)
    (h : ∀ d ∈ digits, d.isDigit = true) : c ∉ digits := by
  intro hmem
  rw [h c hmem] at hc
  cases hc

lemma not_mem_decimal (hc : c.isDigit = false) (n : Nat) : c ∉ Nat.toDigits 10 n :=
  not_mem_of_forall_isDigit hc fun _ => isDigit_of_mem_decimal

/-- Decimal digits denote the number that the standard reading of digits gives. -/
lemma value_eq_ofDigitChars {digits : List Char} (h : ∀ d ∈ digits, d.isDigit = true) :
    value 10 digits = Nat.ofDigitChars 10 digits 0 := by
  apply List.foldl_ext
  intro n d hd
  rw [digitValue, if_pos (h d hd)]
  rfl

lemma toList_repr (n : Nat) : (Nat.repr n).toList = Nat.toDigits 10 n := by
  rw [Nat.repr_eq_ofList_toDigits, String.toList_ofList]

lemma eq_of_toDigits_eq {m n : Nat} (h : Nat.toDigits 10 m = Nat.toDigits 10 n) : m = n := by
  have hvalue := congrArg (value 10) h
  rwa [value_toDigits (by omega) (by omega), value_toDigits (by omega) (by omega)] at hvalue

end Numbers

end RegisterMap.Numeral
