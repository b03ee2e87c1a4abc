import Mathlib.Data.Int.Bitwise
import Mathlib.Tactic.Positivity
import RegisterMap.Proofs.Bits
import RegisterMap.Proofs.Coverage

/-!
# Fields of register values

Register values and fields are integers of either sign, read in two's complement, so that they have
a bit at every position. An integer is told by its bits. Truncating keeps the lowest bits, reading
a field takes the bits of its range, and writing a field takes the bits of the range from the field
and all others from the register value. From this the laws of reading and writing follow bit by bit,
and also that both are the operations with masks that they stand for.
-/

namespace RegisterMap

/-! ### Bits of integers -/

namespace Bits

@[simp] lemma testBit_natCast (n i : Nat) : Int.testBit n i = n.testBit i := rfl

lemma testBit_eq_false_of_le {n i : Nat} (h : n ≤ i) : n.testBit i = false := by
  apply Nat.testBit_lt_two_pow
  exact Nat.lt_two_pow_self.trans_le (Nat.pow_le_pow_right (by omega) h)

/-- Far out, the bits of an integer tell its sign. -/
lemma exists_forall_testBit_eq (v : Int) : ∃ n, ∀ i, n ≤ i → v.testBit i = decide (v < 0) := by
  cases v with
  | ofNat n =>
    refine ⟨n, fun i hi => ?_⟩
    rw [Int.testBit, testBit_eq_false_of_le hi, eq_comm, decide_eq_false_iff_not]
    exact not_lt.mpr (Int.natCast_nonneg n)
  | negSucc n =>
    refine ⟨n, fun i hi => ?_⟩
    rw [Int.testBit, testBit_eq_false_of_le hi, eq_comm, Bool.not_false, decide_eq_true_eq]
    exact Int.negSucc_lt_zero n

/-- An integer is told by its bits. -/
lemma eq_of_testBit_eq {a b : Int} (h : ∀ i, a.testBit i = b.testBit i) : a = b := by
  have hsign : a < 0 ↔ b < 0 := by
    obtain ⟨m, hm⟩ := exists_forall_testBit_eq a
    obtain ⟨n, hn⟩ := exists_forall_testBit_eq b
    rw [← decide_eq_decide, ← hm (max m n) (le_max_left m n), h, hn (max m n) (le_max_right m n)]
  cases a with
  | ofNat m =>
    cases b with
    | ofNat n => exact congrArg Int.ofNat (Nat.eq_of_testBit_eq h)
    | negSucc n =>
      rw [Int.ofNat_eq_natCast] at hsign
      omega
  | negSucc m =>
    cases b with
    | ofNat n =>
      rw [Int.ofNat_eq_natCast] at hsign
      omega
    | negSucc n =>
      refine congrArg Int.negSucc (Nat.eq_of_testBit_eq fun i => ?_)
      simpa [Int.testBit] using h i

/-- Dividing by a power of two moves the bits down. -/
lemma testBit_ediv_capacity (v : Int) (width i : Nat) :
    (v / capacity width).testBit i = v.testBit (i + width) := by
  rw [capacity_eq, ← Int.shiftRight_eq_div_pow, Nat.add_comm]
  cases v with
  | ofNat n => exact Nat.testBit_shiftRight n
  | negSucc n => exact congrArg not (Nat.testBit_shiftRight n)

lemma testBit_neg_sub_one (v : Int) (i : Nat) : (-v - 1).testBit i = !v.testBit i := by
  have hnot : -v - 1 = v.lnot := by
    cases v with
    | ofNat n =>
      change -(n : Int) - 1 = Int.negSucc n
      omega
    | negSucc n =>
      change -Int.negSucc n - 1 = (n : Int)
      omega
  rw [hnot, Int.testBit_lnot]

/-! ### Shifting and truncation -/

lemma natCast_truncate (width : Nat) (v : Int) : (truncate width v : Int) = v % 2 ^ width := by
  rw [truncate, capacity_eq, Int.toNat_of_nonneg (Int.emod_nonneg v (by positivity))]
  push_cast
  rfl

lemma truncate_lt (width : Nat) (v : Int) : truncate width v < 2 ^ width := by
  have hlt : v % 2 ^ width < 2 ^ width := Int.emod_lt_of_pos v (by positivity)
  rw [← natCast_truncate] at hlt
  exact_mod_cast hlt

/-- Truncating keeps the lowest bits. -/
@[simp] lemma testBit_truncate (width : Nat) (v : Int) (i : Nat) :
    (truncate width v).testBit i = (decide (i < width) && v.testBit i) := by
  rw [truncate, capacity_eq]
  cases v with
  | ofNat n => exact Nat.testBit_mod_two_pow n width i
  | negSucc n =>
    have hmod : (Int.negSucc n % (2 ^ width : Nat)).toNat = 2 ^ width - (n % 2 ^ width + 1) := by
      rw [Int.emod_negSucc, Int.natAbs_natCast,
        Int.subNatNat_of_le (Nat.mod_lt n (Nat.two_pow_pos width))]
      rfl
    rw [hmod, Nat.testBit_two_pow_sub_succ (Nat.mod_lt n (Nat.two_pow_pos width)),
      Nat.testBit_mod_two_pow, Int.testBit]
    cases decide (i < width) <;> rfl

@[simp] lemma testBit_invert (v : Int) (width i : Nat) :
    (invert v width).testBit i = (decide (i < width) && !v.testBit i) := by
  rw [invert, testBit_truncate, testBit_neg_sub_one]

/-- Shifting moves the bits up and puts zeros below them. -/
lemma testBit_shiftLeft (v : Int) (k i : Nat) :
    (v <<< k).testBit i = (decide (k ≤ i) && v.testBit (i - k)) := by
  have hpos : (0 : Int) < 2 ^ k := by positivity
  by_cases hi : k ≤ i
  · have hdown : v <<< k / capacity k = v := by
      rw [capacity_eq, Int.shiftLeft_eq]
      push_cast
      exact Int.mul_ediv_cancel v hpos.ne'
    have hbit := testBit_ediv_capacity (v <<< k) k (i - k)
    rw [hdown, Nat.sub_add_cancel hi] at hbit
    rw [← hbit, decide_eq_true hi, Bool.true_and]
  · -- The bits below are those of the remainder, which is zero.
    have hzero : truncate k (v <<< k) = 0 := by
      apply Int.natCast_inj.mp
      rw [natCast_truncate, Int.shiftLeft_eq, Int.natCast_zero, Int.mul_emod_left]
    have hbit := testBit_truncate k (v <<< k) i
    rw [hzero, Nat.zero_testBit, decide_eq_true (by omega), Bool.true_and] at hbit
    rw [← hbit, decide_eq_false hi, Bool.false_and]

end Bits

/-! ### Bits of fields -/

namespace BitRange

open Bits

variable {r s : BitRange} {w : Nat}

lemma lsb_add_width_eq (r : BitRange) : r.lsb + r.width = r.msb + 1 := by
  have := r.lsb_le_msb
  simp only [width]
  omega

lemma testBit_mask (r : BitRange) (i : Nat) : r.mask.testBit i = r.contains i := by
  have := lsb_add_width_eq r
  rw [mask, ones_eq, Nat.testBit_shiftLeft, Nat.testBit_two_pow_sub_one, Bool.eq_iff_iff,
    contains_iff, Bool.and_eq_true, decide_eq_true_eq, decide_eq_true_eq]
  omega

/-- Reading a field moves the bits of its range down. -/
lemma testBit_get (r : BitRange) (v : Int) (i : Nat) :
    (r.get v).testBit i = (decide (i < r.width) && v.testBit (i + r.lsb)) := by
  rw [get, testBit_truncate, testBit_ediv_capacity]

/-- Writing a field takes the bits of its range from the field and the others from the register
value, as far as the register reaches. -/
lemma testBit_set (r : BitRange) (f v : Int) (w i : Nat) :
    (r.set f v w).testBit i =
      if r.contains i then f.testBit (i - r.lsb) else decide (i < w) && v.testBit i := by
  have htop := lsb_add_width_eq r
  let kept := truncate w v
  let field := truncate r.width f
  -- The register is written as the bits above the range, those in it and those below it.
  have hparts : r.set f v w =
      2 ^ (r.msb + 1) * (kept / 2 ^ (r.msb + 1)) + (2 ^ r.lsb * field + kept % 2 ^ r.lsb) := by
    simp only [set, capacity_eq]
    rw [Nat.mul_comm (kept / _), Nat.mul_comm field, Nat.add_assoc]
  have hbelow : kept % 2 ^ r.lsb < 2 ^ r.lsb := Nat.mod_lt _ (Nat.two_pow_pos _)
  have hinside : 2 ^ r.lsb * field + kept % 2 ^ r.lsb < 2 ^ (r.msb + 1) := by
    calc 2 ^ r.lsb * field + kept % 2 ^ r.lsb
        < 2 ^ r.lsb * (field + 1) := by rw [Nat.mul_succ]; omega
      _ ≤ 2 ^ r.lsb * 2 ^ r.width := Nat.mul_le_mul_left _ (truncate_lt r.width f)
      _ = 2 ^ (r.msb + 1) := by rw [← Nat.pow_add, htop]
  rw [hparts, Nat.testBit_two_pow_mul_add _ hinside, Nat.testBit_two_pow_mul_add _ hbelow,
    Nat.testBit_mod_two_pow, Nat.testBit_div_two_pow]
  by_cases hlow : i < r.lsb
  · have hcontains : ¬ r.contains i = true := by rw [contains_iff]; omega
    rw [if_pos (by omega), if_pos hlow, if_neg hcontains, testBit_truncate, decide_eq_true hlow,
      Bool.true_and]
  · by_cases hhigh : i ≤ r.msb
    · have hcontains : r.contains i = true := contains_iff.mpr ⟨by omega, hhigh⟩
      have hwidth : i - r.lsb < r.width := by omega
      rw [if_pos (by omega), if_neg hlow, if_pos hcontains, testBit_truncate,
        decide_eq_true hwidth, Bool.true_and]
    · have hcontains : ¬ r.contains i = true := by rw [contains_iff]; omega
      rw [if_neg (by omega), if_neg hcontains, Nat.sub_add_cancel (by omega), testBit_truncate]

lemma testBit_set_of_contains {i : Nat} (h : r.contains i = true) (f v : Int) (w : Nat) :
    (r.set f v w).testBit i = f.testBit (i - r.lsb) := by
  rw [testBit_set, if_pos h]

lemma testBit_set_of_not_contains {i : Nat} (h : r.contains i = false) (f v : Int) (w : Nat) :
    (r.set f v w).testBit i = (decide (i < w) && v.testBit i) := by
  rw [testBit_set, if_neg (by simp [h])]

/-! ### Reading after writing -/

lemma contains_add_lsb {i : Nat} (h : i < r.width) : r.contains (i + r.lsb) = true := by
  have := lsb_add_width_eq r
  exact contains_iff.mpr ⟨by omega, by omega⟩

lemma natCast_get (r : BitRange) (v : Int) : (r.get v : Int) = v / 2 ^ r.lsb % 2 ^ r.width := by
  rw [get, natCast_truncate, capacity_eq]
  push_cast
  rfl

/-- A field is read back as far as it fits in the range. -/
lemma get_set (r : BitRange) (f v : Int) (w : Nat) :
    r.get (r.set f v w) = truncate r.width f := by
  apply Nat.eq_of_testBit_eq
  intro i
  rw [testBit_get, testBit_truncate, testBit_natCast]
  by_cases hi : i < r.width
  · rw [testBit_set_of_contains (contains_add_lsb hi), Nat.add_sub_cancel]
  · simp [hi]

/-- Writing a field leaves those of other ranges as they are. -/
lemma get_set_of_apart (h : r.Apart s) (hr : r.msb < w) (f v : Int) :
    r.get (s.set f v w) = r.get v := by
  apply Nat.eq_of_testBit_eq
  intro i
  rw [testBit_get, testBit_get, testBit_natCast]
  by_cases hi : i < r.width
  · have hcontains := contains_add_lsb hi
    have hlt : i + r.lsb < w := by have := contains_iff.mp hcontains; omega
    rw [testBit_set_of_not_contains (h _ hcontains), decide_eq_true hlt, Bool.true_and]
  · simp [hi]

/-! ### Writing twice -/

/-- Writing back the field that was read only cuts the value to the width of the register. -/
lemma set_get (h : r.msb < w) (v : Int) : r.set (r.get v) v w = truncate w v := by
  apply Nat.eq_of_testBit_eq
  intro i
  rw [testBit_truncate]
  cases hcontains : r.contains i with
  | false => exact testBit_set_of_not_contains hcontains _ v w
  | true =>
    obtain ⟨hlow, hhigh⟩ := contains_iff.mp hcontains
    have := lsb_add_width_eq r
    have hwidth : i - r.lsb < r.width := by omega
    have hlt : i < w := by omega
    rw [testBit_set_of_contains hcontains, testBit_natCast, testBit_get, decide_eq_true hwidth,
      decide_eq_true hlt, Nat.sub_add_cancel hlow]

/-- Of two fields written in one range, the last one stays. -/
lemma set_set (r : BitRange) (f g v : Int) (w : Nat) :
    r.set g (r.set f v w) w = r.set g v w := by
  apply Nat.eq_of_testBit_eq
  intro i
  cases hcontains : r.contains i with
  | true => rw [testBit_set_of_contains hcontains, testBit_set_of_contains hcontains]
  | false =>
    rw [testBit_set_of_not_contains hcontains, testBit_set_of_not_contains hcontains,
      testBit_natCast, testBit_set_of_not_contains hcontains, ← Bool.and_assoc, Bool.and_self]

/-- Fields in ranges without a common bit can be written in any order. -/
lemma set_comm_of_apart (h : r.Apart s) (hr : r.msb < w) (hs : s.msb < w) (f g v : Int) :
    r.set f (s.set g v w) w = s.set g (r.set f v w) w := by
  apply Nat.eq_of_testBit_eq
  intro i
  rw [testBit_set, testBit_set, testBit_natCast, testBit_natCast, testBit_set, testBit_set]
  by_cases hinr : r.contains i = true
  · have hlt : i < w := by have := contains_iff.mp hinr; omega
    simp [hinr, h i hinr, hlt]
  · by_cases hins : s.contains i = true
    · have hlt : i < w := by have := contains_iff.mp hins; omega
      simp [hinr, hins, hlt]
    · simp [hinr, hins]

/-! ### Masks -/

/-- Reading a field is masking the register value and moving the bits down. -/
lemma get_eq_masked (r : BitRange) (v : Int) :
    (r.get v : Int) = Int.land v r.mask >>> r.lsb := by
  apply eq_of_testBit_eq
  intro i
  rw [Int.shiftRight_eq_div_pow, ← capacity_eq, testBit_ediv_capacity, Int.testBit_land,
    testBit_natCast, testBit_natCast, testBit_get, testBit_mask]
  by_cases hi : i < r.width
  · simp [hi, contains_add_lsb hi]
  · have hcontains : ¬ r.contains (i + r.lsb) = true := by
      have := lsb_add_width_eq r
      rw [contains_iff]
      omega
    simp [hi, hcontains]

/-- Writing a field is clearing the bits of the mask in the register value, and setting those of the
field that is moved up and masked. -/
lemma set_eq_masked (r : BitRange) (f v : Int) (w : Nat) :
    (r.set f v w : Int) =
      Int.lor (Int.land v (invert r.mask w)) (Int.land (f <<< r.lsb) r.mask) := by
  apply eq_of_testBit_eq
  intro i
  rw [Int.testBit_lor, Int.testBit_land, Int.testBit_land, testBit_natCast, testBit_natCast,
    testBit_natCast, testBit_invert, testBit_natCast, testBit_mask, testBit_shiftLeft, testBit_set]
  by_cases hcontains : r.contains i = true
  · simp [hcontains, (contains_iff.mp hcontains).1]
  · simp [hcontains, Bool.and_comm]

/-! ### The laws of fields -/

/-- Reading and writing a field are the operations with the mask of the range. After writing, the
bits of the range are those of the field, the others below the width of the register those of the
register value, and there are no more. Reading gives the bits of the range as a number. What was
written is read back as far as it fits, writing what was read changes nothing, of two fields written
in one range the last one stays, and fields in ranges without a common bit do not touch each
other. -/
theorem get_set_lawful (r : BitRange) (w : Nat) :
    (∀ v : Int, (r.get v : Int) = Int.land v r.mask >>> r.lsb) ∧
    (∀ f v : Int, (r.set f v w : Int) =
      Int.lor (Int.land v (invert r.mask w)) (Int.land (f <<< r.lsb) r.mask)) ∧
    (∀ (f v : Int) (i : Nat), (r.set f v w).testBit i =
      if r.lsb ≤ i ∧ i ≤ r.msb then f.testBit (i - r.lsb)
      else if i < w then v.testBit i else false) ∧
    (∀ v : Int, (r.get v : Int) = v / 2 ^ r.lsb % 2 ^ (r.msb - r.lsb + 1)) ∧
    (∀ f v : Int, (r.get (r.set f v w) : Int) = f % 2 ^ (r.msb - r.lsb + 1)) ∧
    (r.msb < w → ∀ v : Int, (r.set (r.get v) v w : Int) = v % 2 ^ w) ∧
    (∀ f g v : Int, r.set g (r.set f v w) w = r.set g v w) ∧
    ∀ s : BitRange, r.Apart s → r.msb < w → s.msb < w →
      ∀ f g v : Int, r.set f (s.set g v w) w = s.set g (r.set f v w) w ∧
        r.get (s.set g v w) = r.get v ∧ s.get (r.set f v w) = s.get v := by
  refine ⟨get_eq_masked r, fun f v => set_eq_masked r f v w, ?_, natCast_get r, ?_, ?_,
    fun f g v => set_set r f g v w, ?_⟩
  · intro f v i
    rw [testBit_set]
    simp only [contains_iff]
    by_cases hi : i < w <;> simp [hi]
  · intro f v
    rw [get_set]
    exact natCast_truncate r.width f
  · intro hr v
    rw [set_get hr]
    exact natCast_truncate w v
  · intro s hapart hr hs f g v
    exact ⟨set_comm_of_apart hapart hr hs f g v, get_set_of_apart hapart hr g v,
      get_set_of_apart hapart.symm hs f v⟩

/-- The bits nine to fourteen. -/
def upperRange : BitRange := ⟨14, 9, by omega⟩

/-- The bits six to eight, which are next to them. -/
def lowerRange : BitRange := ⟨8, 6, by omega⟩

/-- Two ranges of a register of 16 bits, with negative values and with fields that do not fit. -/
theorem get_set_lawful_neighbours :
    upperRange.msb < 16 ∧ lowerRange.msb < 16 ∧ upperRange.Apart lowerRange ∧
      (upperRange.set (upperRange.get (-0x5b)) (-0x5b) 16 : Int) = 0xffa5 ∧
      upperRange.set 0x53 (lowerRange.set (-3) 0x1a5a5 16) 16 =
        lowerRange.set (-3) (upperRange.set 0x53 0x1a5a5 16) 16 ∧
      upperRange.get (lowerRange.set (-3) 0x1a5a5 16) = 0x12 ∧
      lowerRange.get (upperRange.set 0x53 0x1a5a5 16) = 0x6 := by
  have hupper : upperRange.msb < 16 := by decide
  have hlower : lowerRange.msb < 16 := by decide
  have hapart : upperRange.Apart lowerRange := by decide
  obtain ⟨_, _, _, _, _, hback, _, hothers⟩ := get_set_lawful upperRange 16
  obtain ⟨hcomm, hget, hget'⟩ := hothers lowerRange hapart hupper hlower 0x53 (-3) 0x1a5a5
  exact ⟨hupper, hlower, hapart, hback hupper (-0x5b), hcomm, hget, hget'⟩

end BitRange

end RegisterMap
