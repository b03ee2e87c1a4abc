import Mathlib.Data.Nat.Digits.Defs
import Mathlib.Tactic.SplitIfs
import RegisterMap.BitRange.Text
import RegisterMap.Proofs.Numeral

/-!
# Ranges written and read back

The text of a bit range is read as this range, also by the strict reader: it has no redundant
spelling. Bit numbers are read up to a bound.
-/

namespace RegisterMap.BitRange

lemma beforeFinalBreak_decimal (n : Nat) :
    Text.beforeFinalBreak (Nat.toDigits 10 n) = Nat.toDigits 10 n :=
  Text.beforeFinalBreak_of_not_mem (Numeral.not_mem_decimal rfl n)

/-- A bit number is read back from its digits. -/
lemma readBitNumber_decimal {n : Nat} (h : n ≤ maxBitNumber) :
    readBitNumber (Nat.toDigits 10 n) = .ok n := by
  have hnumber : isBitNumber (Nat.toDigits 10 n) = true := by
    rw [isBitNumber, beforeFinalBreak_decimal, Bool.and_eq_true]
    refine ⟨by simp, List.all_eq_true.mpr fun c hc => ?_⟩
    exact Numeral.isDigit_of_mem_decimal hc
  have hlength : (Nat.toDigits 10 n).length ≤ 5 :=
    Nat.toDigits_length 10 n 5 (by omega) (by unfold maxBitNumber at h; omega)
  have hshort : ¬Numeral.maxDigits < (Nat.toDigits 10 n).length := by
    unfold Numeral.maxDigits
    omega
  rw [readBitNumber, if_pos hnumber, beforeFinalBreak_decimal, if_neg hshort,
    Numeral.value_toDigits (by omega) (by omega)]
  exact if_neg (by omega)

lemma toList_text (r : BitRange) : r.text.toList =
    if r.isSingle then Nat.toDigits 10 r.msb
    else [':'].intercalate [Nat.toDigits 10 r.msb, Nat.toDigits 10 r.lsb] := by
  rw [text]
  split_ifs with hsingle
  · exact Numeral.toList_repr r.msb
  · simp [toString]

/-- The only bit of a range, or its highest and its lowest bit with a colon between. -/
def spelled (r : BitRange) : String :=
  if r.lsb = r.msb then toString r.msb else s!"{r.msb}:{r.lsb}"

lemma isSingle_iff {r : BitRange} : r.isSingle = true ↔ r.lsb = r.msb := by
  rw [isSingle, beq_iff_eq, eq_comm]

lemma text_eq_spelled (r : BitRange) : r.text = r.spelled := by
  simp only [text, spelled, isSingle_iff]

lemma splitOn_append_colon {high low : List Char} (hhigh : ':' ∉ high) (hlow : ':' ∉ low) :
    (high ++ ':' :: low).splitOn ':' = [high, low] := by
  have hsplit : ([':'].intercalate [high, low]).splitOn ':' = [high, low] :=
    List.splitOn_intercalate ':' (by simp [hhigh, hlow]) (by simp)
  simpa using hsplit

/-- The text of a range is cut into its bit numbers. -/
lemma splitOn_toList_text (r : BitRange) : r.text.toList.splitOn ':' =
    if r.isSingle then [Nat.toDigits 10 r.msb]
    else [Nat.toDigits 10 r.msb, Nat.toDigits 10 r.lsb] := by
  have hcolon := Numeral.not_mem_decimal (c := ':') rfl
  rw [toList_text]
  split_ifs with hsingle
  · exact List.splitOn_eq_singleton (hcolon r.msb)
  · simpa using splitOn_append_colon (hcolon r.msb) (hcolon r.lsb)

/-- The text of a range is read as this range. -/
lemma read_text {r : BitRange} (h : r.msb ≤ maxBitNumber) (strict : Bool) :
    read r.text strict = .ok r := by
  have hlsb : r.lsb ≤ maxBitNumber := r.lsb_le_msb.trans h
  have hsplit := splitOn_toList_text r
  rw [read]
  split_ifs at hsplit with hsingle
  · simp only [hsplit, readBitNumber_decimal h]
    obtain ⟨msb, lsb, hle⟩ := r
    obtain rfl : msb = lsb := by simpa [isSingle] using hsingle
    rfl
  · have hne : r.msb ≠ r.lsb := by simpa [isSingle] using hsingle
    simp only [hsplit, readBitNumber_decimal h, readBitNumber_decimal hlsb, bind, Except.bind]
    rw [dif_neg (by have := r.lsb_le_msb; omega), if_neg (by simp [hne])]
    rfl

end RegisterMap.BitRange
