import Mathlib.Tactic.Ring
import RegisterMap.Proofs.AddressTemplate

/-!
# Pairs of addresses and templates

The two addresses of a template differ in one digit, and by the power of sixteen that stands for the
place of this digit. A pair of addresses has a template exactly if it comes of one, and then the
template that it has gives the pair again.
-/

namespace RegisterMap

namespace Numeral

lemma value_append (digits others : List Char) :
    value 16 (digits ++ others) = value 16 digits * 16 ^ others.length + value 16 others := by
  induction others using List.reverseRecOn with
  | nil => simp [value]
  | append_singleton others c ih =>
    rw [← List.append_assoc, AddressTemplate.value_concat, ih, AddressTemplate.value_concat,
      List.length_append, List.length_singleton, pow_succ]
    ring

lemma value_lt {digits : List Char} (h : ∀ c ∈ digits, isHexDigit c = true) :
    value 16 digits < 16 ^ digits.length := by
  induction digits using List.reverseRecOn with
  | nil => simp [value]
  | append_singleton digits c ih =>
    obtain ⟨hdigits, hc⟩ := List.forall_mem_append.mp h
    have hlt := AddressTemplate.digitValue_lt (hc c (List.mem_singleton_self c))
    have hinit := ih hdigits
    rw [AddressTemplate.value_concat, List.length_append, List.length_singleton, pow_succ]
    omega

end Numeral

namespace AddressTemplate

open Numeral

/-! ### The place of the placeholder -/

/-- How many hexadecimal digits stand after the placeholder of a template. -/
def digitsAfter (template : String) : Nat :=
  (template.toList.dropWhile (· != placeholder)).countP isHexDigit

/-- A template is its digits, perhaps after a base mark and before a line feed. -/
lemma exists_toList_eq (template : String) :
    ∃ mark last, template.toList = mark ++ digits template ++ last ∧ placeholder ∉ mark ∧
      last.countP isHexDigit = 0 := by
  obtain ⟨last, hlast, hcount⟩ : ∃ last,
      template.toList = Text.beforeFinalBreak template.toList ++ last ∧
        last.countP isHexDigit = 0 := by
    rcases Text.eq_beforeFinalBreak_or template.toList with htext | htext
    · exact ⟨[], htext.trans (List.append_nil _).symm, rfl⟩
    · exact ⟨['\n'], htext, rfl⟩
  obtain ⟨mark, hmark, hfree⟩ : ∃ mark,
      Text.beforeFinalBreak template.toList = mark ++ digits template ∧ placeholder ∉ mark := by
    unfold digits withoutBaseMark
    split
    next heq => exact ⟨['0', 'x'], heq, by decide⟩
    next heq => exact ⟨['0', 'X'], heq, by decide⟩
    next => exact ⟨[], rfl, List.not_mem_nil⟩
  exact ⟨mark, last, by rw [← hmark]; exact hlast, hfree, hcount⟩

/-- The digits after the placeholder are counted in the digits of the template. -/
lemma digitsAfter_eq {template : String} {front back : List Char}
    (h : digits template = front ++ placeholder :: back)
    (hfront : ∀ c ∈ front, isHexDigit c = true) (hback : ∀ c ∈ back, isHexDigit c = true) :
    digitsAfter template = back.length := by
  obtain ⟨mark, last, htext, hmark, hlast⟩ := exists_toList_eq template
  have hfree : ∀ c ∈ mark ++ front, (c != placeholder) = true := by
    intro c hc
    rw [bne_iff_ne]
    rcases List.mem_append.mp hc with hc | hc
    · exact ne_of_mem_of_not_mem hc hmark
    · exact ne_placeholder (hfront c hc)
  have hparts : template.toList = mark ++ front ++ placeholder :: (back ++ last) := by
    rw [htext, h]
    simp
  rw [digitsAfter, hparts, List.dropWhile_append_of_pos hfree, List.dropWhile_cons_of_neg (by simp),
    List.countP_cons_of_neg (by decide), List.countP_append, hlast, List.countP_eq_length.mpr hback,
    Nat.add_zero]

/-- The address with a digit in the place of the placeholder. -/
lemma address_eq {front back : List Char} (hfront : ∀ c ∈ front, isHexDigit c = true)
    (hback : ∀ c ∈ back, isHexDigit c = true) (digit : Char) :
    address (front ++ placeholder :: back) digit =
      (16 * value 16 front + digitValue digit) * 16 ^ back.length + value 16 back := by
  have hmap (part : List Char) (h : ∀ c ∈ part, isHexDigit c = true) :
      part.map (fun c => if c = placeholder then digit else c) = part := by
    rw [List.map_congr_left fun c hc => if_neg (ne_placeholder (h c hc))]
    exact List.map_id part
  rw [address, List.map_append, List.map_cons, hmap front hfront, hmap back hback, if_pos rfl,
    ← List.singleton_append, ← List.append_assoc, value_append, value_concat]

/-! ### Templates of numerals -/

/-- A digit of a number that is the read digit or the write digit in capitals has its value. -/
lemma digitValue_of_toUpper {n : Nat} {c : Char} (hc : c ∈ hexDigits n) :
    (c.toUpper = readDigit → digitValue c = 12) ∧ (c.toUpper = writeDigit → digitValue c = 13) := by
  refine forall_mem_toDigits (p := fun c => (c.toUpper = readDigit → digitValue c = 12) ∧
    (c.toUpper = writeDigit → digitValue c = 13)) (by omega) (fun d hd => ?_) n c hc
  interval_cases d <;> decide

/-- Numerals that can be merged denote the addresses of what they are merged into. -/
lemma standsFor_of_merge {read write : Nat} {digits : List Char}
    (h : merge (hexDigits read) (hexDigits write) = some digits) : StandsFor digits read write := by
  obtain ⟨front, r, w, back, hread, hwrite, rfl, hr, hw⟩ := merge_eq_some_iff.mp h
  have hhex : ∀ c ∈ front ++ r :: back, isHexDigit c = true := by
    intro c hc
    exact isHexDigit_of_mem_toDigits (by omega) le_rfl (hread ▸ hc)
  obtain ⟨hfront, hrback⟩ := List.forall_mem_append.mp hhex
  have hback := (List.forall_mem_cons.mp hrback).2
  have hvalue (n : Nat) (c : Char) (hn : hexDigits n = front ++ c :: back) :
      (16 * value 16 front + digitValue c) * 16 ^ back.length + value 16 back = n := by
    have hdigits : value 16 (hexDigits n) = n := value_toDigits (by omega) le_rfl n
    rw [hn, ← List.singleton_append, ← List.append_assoc, value_append, value_concat] at hdigits
    exact hdigits
  constructor
  · rw [List.count_append, List.count_cons_self,
      List.count_eq_zero.mpr (not_mem_of_forall_isHexDigit hfront),
      List.count_eq_zero.mpr (not_mem_of_forall_isHexDigit hback)]
  · rw [List.forall_mem_append, List.forall_mem_cons]
    exact ⟨fun c hc => .inr (hfront c hc), .inl rfl, fun c hc => .inr (hback c hc)⟩
  · rw [address_eq hfront hback, ← hvalue read r hread,
      (digitValue_of_toUpper (hread ▸ List.mem_append_right _ List.mem_cons_self)).1 hr]
    rfl
  · rw [address_eq hfront hback, ← hvalue write w hwrite,
      (digitValue_of_toUpper (hwrite ▸ List.mem_append_right _ List.mem_cons_self)).2 hw]
    rfl

/-- The template of a pair of addresses gives the pair again. -/
lemma expand_of_ofAddresses {read write : Nat} {template : String}
    (h : ofAddresses read write = .ok template) : expand template = .ok (read, write) := by
  have hsigned (n : Nat) : signedHex n = hexDigits n := if_neg (by omega)
  rw [ofAddresses, hsigned, hsigned] at h
  cases hmerge : merge (hexDigits read) (hexDigits write) with
  | none =>
    rw [hmerge] at h
    cases h
  | some digits =>
    rw [hmerge] at h
    have hstands := standsFor_of_merge hmerge
    rw [← Except.ok.inj h, expand_eq_ok_iff, digits_eq hstands.forall_mem]
    exact hstands

/-- The addresses of a template are apart by the power of sixteen for the digits after its
placeholder, and at this place the read address has the digit `C`. Two addresses have a template
exactly if they come of one, and the template that they have gives both of them again. -/
theorem expand_ofAddresses_roundTrip :
    (∀ template read write, expand template = .ok (read, write) →
      write = read + 16 ^ digitsAfter template ∧ read / 16 ^ digitsAfter template % 16 = 0xC) ∧
    ∀ read write : Nat,
      ((∃ template, ofAddresses read write = .ok template) ↔
        ∃ template, expand template = .ok (read, write)) ∧
      ∀ template, ofAddresses read write = .ok template → expand template = .ok (read, write) := by
  refine ⟨fun template read write h => ?_, fun read write => ⟨⟨?_, ?_⟩, fun _ =>
    expand_of_ofAddresses⟩⟩
  · have hstands := expand_eq_ok_iff.mp h
    obtain ⟨front, back, hdigits, hfront, hback⟩ := hstands.exists_eq_append
    have hread := hstands.read_eq
    have hwrite := hstands.write_eq
    rw [hdigits, address_eq hfront hback] at hread hwrite
    have hreadDigit : digitValue readDigit = 12 := rfl
    have hwriteDigit : digitValue writeDigit = 13 := rfl
    rw [hreadDigit] at hread
    rw [hwriteDigit] at hwrite
    rw [digitsAfter_eq hdigits hfront hback]
    constructor
    · rw [← hread, ← hwrite]
      ring
    · rw [← hread, add_comm, Nat.add_mul_div_right _ _ (by positivity),
        Nat.div_eq_of_lt (value_lt hback)]
      omega
  · rintro ⟨template, h⟩
    exact ⟨template, expand_of_ofAddresses h⟩
  · rintro ⟨template, h⟩
    obtain ⟨_, digits, htemplate, _⟩ := exists_ofAddresses_of_expand h
    exact ⟨_, htemplate⟩

/-- A template with a base mark, leading zeros, capitals and a final line feed. -/
theorem expand_ofAddresses_roundTrip_crtc :
    expand "0X003?A\n" = .ok (0x3ca, 0x3da) ∧ 0x3da = 0x3ca + 16 ^ digitsAfter "0X003?A\n" ∧
      0x3ca / 16 ^ digitsAfter "0X003?A\n" % 16 = 0xC ∧
      (∃ template, ofAddresses (0x3ca : Nat) (0x3da : Nat) = .ok template) ∧
      expand "0x3?a" = .ok (0x3ca, 0x3da) := by
  have hexpand : expand "0X003?A\n" = .ok (0x3ca, 0x3da) := by decide
  have htemplate : ofAddresses (0x3ca : Nat) (0x3da : Nat) = .ok "0x3?a" := by decide
  obtain ⟨hdifference, hdigit⟩ := expand_ofAddresses_roundTrip.1 _ _ _ hexpand
  obtain ⟨hiff, hback⟩ := expand_ofAddresses_roundTrip.2 0x3ca 0x3da
  exact ⟨hexpand, hdifference, hdigit, hiff.mpr ⟨_, hexpand⟩, hback _ htemplate⟩

end AddressTemplate

end RegisterMap
