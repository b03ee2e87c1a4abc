import Mathlib.Logic.ExistsUnique
import Mathlib.Tactic.ByContra
import Mathlib.Tactic.SplitIfs
import RegisterMap.Check.Coverage
import RegisterMap.Proofs.Distinct

/-!
# Bit fields that partition a register

The check of a register's coverage is silent exactly when its bit fields lie inside the register,
no two of them share a bit, and every bit is covered by a bit field or by a refused one. Without
refused bit fields, every bit then belongs to exactly one bit field.
-/

namespace RegisterMap

/-! ### Ranges that share no bit -/

namespace BitRange

lemma contains_iff {r : BitRange} {bit : Nat} :
    r.contains bit = true ↔ r.lsb ≤ bit ∧ bit ≤ r.msb := by
  simp [contains]

lemma contains_lsb (r : BitRange) : r.contains r.lsb = true :=
  contains_iff.mpr ⟨Nat.le_refl _, r.lsb_le_msb⟩

/-- Two ranges without a common bit. -/
def Apart (r s : BitRange) : Prop := ∀ bit, r.contains bit = true → s.contains bit = false

lemma apart_iff {r s : BitRange} : r.Apart s ↔ r.msb < s.lsb ∨ s.msb < r.lsb := by
  have hr := r.lsb_le_msb
  have hs := s.lsb_le_msb
  refine ⟨fun h => ?_, fun h bit hbit => ?_⟩
  · -- The larger one of the two lowest bits is the one to look at.
    by_contra hmeet
    have hboth : r.contains (max r.lsb s.lsb) = true ∧ s.contains (max r.lsb s.lsb) = true := by
      rw [contains_iff, contains_iff]
      omega
    simp [h _ hboth.1] at hboth
  · rw [← Bool.not_eq_true, contains_iff]
    have := contains_iff.mp hbit
    omega

instance (r s : BitRange) : Decidable (r.Apart s) := decidable_of_iff _ apart_iff.symm

lemma Apart.symm {r s : BitRange} (h : r.Apart s) : s.Apart r := apart_iff.mpr (apart_iff.mp h).symm

end BitRange

namespace Coverage

open BitRange

/-! ### One range beside the earlier ones -/

lemma owner?_eq_none_iff {ranges : List BitRange} {bit : Nat} :
    owner? ranges bit = none ↔ ∀ r ∈ ranges, r.contains bit = false := by
  simp [owner?]

lemma mem_bitsInside {size bit : Nat} {range : BitRange} :
    bit ∈ bitsInside size range ↔ range.contains bit = true ∧ bit < size := by
  simp only [bitsInside, List.mem_range'_1, contains_iff]
  omega

private lemma eraseDups_eq_nil_iff {α : Type} [BEq α] {items : List α} :
    items.eraseDups = [] ↔ items = [] := by
  cases items <;> simp [List.eraseDups_cons]

lemma rangeProblems_eq_nil_iff {size : Nat} {earlier : List BitRange} {range : BitRange} :
    rangeProblems size earlier range = [] ↔
      range.msb < size ∧ ∀ other ∈ earlier, other.Apart range := by
  have howners : ((bitsInside size range).filterMap (owner? earlier)).eraseDups.map
        (Problem.overlap range) = [] ↔
      ∀ bit, range.contains bit = true → bit < size →
        ∀ other ∈ earlier, other.contains bit = false := by
    simp only [List.map_eq_nil_iff, eraseDups_eq_nil_iff, List.filterMap_eq_nil_iff,
      mem_bitsInside, owner?_eq_none_iff, and_imp]
  have houtside : (if size ≤ range.msb then [Problem.outside range size] else []) = [] ↔
      range.msb < size := by
    split_ifs <;> simp <;> omega
  rw [rangeProblems, List.append_eq_nil_iff, howners, houtside]
  constructor
  · rintro ⟨hfree, hmsb⟩
    refine ⟨hmsb, fun other hother bit hbit => ?_⟩
    by_contra hin
    rw [Bool.not_eq_false] at hin
    have hlt : bit < size := Nat.lt_of_le_of_lt (contains_iff.mp hin).2 hmsb
    simp [hfree bit hin hlt other hother] at hbit
  · rintro ⟨hmsb, hapart⟩
    refine ⟨fun bit hin _ other hother => ?_, hmsb⟩
    by_contra hbit
    rw [Bool.not_eq_false] at hbit
    simp [hapart other hother bit hbit] at hin

/-! ### Bits without an owner -/

lemma extend_eq_nil_iff {free : Nat → Bool} {bit : Nat} {above : List BitRange} :
    runs.extend free bit above = [] ↔ free bit = false ∧ above = [] := by
  unfold runs.extend
  cases h : free bit with
  | false => simp
  | true =>
    cases above with
    | nil => simp
    | cons run others =>
      simp only [if_true]
      split_ifs <;> simp

lemma runs_eq_nil_iff {free : Nat → Bool} {size : Nat} :
    runs free size = [] ↔ ∀ bit < size, free bit = false := by
  have hfold (bits : List Nat) :
      bits.foldr (runs.extend free) [] = [] ↔ ∀ bit ∈ bits, free bit = false := by
    induction bits with
    | nil => simp
    | cons bit bits ih => rw [List.foldr_cons, extend_eq_nil_iff, ih, List.forall_mem_cons]
  simp only [runs, hfold, List.mem_range]

lemma undefinedProblems_eq_nil_iff {size : Nat} {ranges : List BitRange} :
    undefinedProblems size ranges = [] ↔ ∀ bit < size, ∃ r ∈ ranges, r.contains bit = true := by
  have hruns : undefinedProblems size ranges = [] ↔
      runs (fun bit => (owner? ranges bit).isNone) size = [] := by
    unfold undefinedProblems
    split <;> simp_all
  rw [hruns, runs_eq_nil_iff]
  refine forall_congr' fun bit => forall_congr' fun _ => ?_
  rw [Option.isNone_eq_false_iff, Option.isSome_iff_ne_none, Ne, owner?_eq_none_iff]
  simp

/-! ### The check -/

/-- The check is silent exactly when the ranges lie inside the register and share no bit, and no
bit is left over unless some refused bit field has no usable range. -/
lemma problems_eq_nil_iff {size : Nat} {ranges : List BitRange}
    {refused : Option (List BitRange)} :
    problems size ranges refused = [] ↔
      (∀ r ∈ ranges, r.msb < size) ∧ ranges.Pairwise Apart ∧
        ∀ others, refused = some others →
          ∀ bit < size, ∃ r ∈ ranges ++ others, r.contains bit = true := by
  have hturn := inTurn_eq_nil_iff (f := rangeProblems size)
    (fun _ _ => rangeProblems_eq_nil_iff) [] ranges
  unfold problems
  rw [List.append_eq_nil_iff, hturn]
  cases refused with
  | none => simp
  | some others => simp [undefinedProblems_eq_nil_iff, and_assoc]

lemma diagnostics_eq_nil_iff {path : Path} {r : Register} {refused : Option (List BitRange)} :
    diagnostics path r refused = [] ↔
      problems r.size.bits (r.bitFields.map (·.range)) refused = [] := by
  simp [diagnostics]

end Coverage

/-! ### Exactly one bit field -/

/-- In a list of bit fields that share no bit, a bit that is covered belongs to one position only. -/
lemma existsUnique_contains {fields : List BitField} {bit : Nat}
    (hapart : (fields.map (·.range)).Pairwise BitRange.Apart)
    (hcovered : ∃ r ∈ fields.map (·.range), r.contains bit = true) :
    ∃! i : Fin fields.length, fields[i].range.contains bit = true := by
  obtain ⟨r, hr, hbit⟩ := hcovered
  obtain ⟨f, hf, rfl⟩ := List.mem_map.mp hr
  obtain ⟨i, hi, rfl⟩ := List.mem_iff_getElem.mp hf
  rw [List.pairwise_map, List.pairwise_iff_getElem] at hapart
  refine ⟨⟨i, hi⟩, hbit, fun ⟨j, hj⟩ hj' => ?_⟩
  rcases Nat.lt_trichotomy i j with hij | rfl | hji
  · simp [hapart i j hi hj hij bit hbit] at hj'
  · rfl
  · simp [hapart j i hj hi hji bit hj'] at hbit

end RegisterMap
