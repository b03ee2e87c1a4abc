import Mathlib.Algebra.Order.Ring.Nat
import Mathlib.Tactic.SplitIfs
import RegisterMap.BitRange.Basic

/-!
# Masks as powers of two

The numbers that fit in some bits are counted by a power of two, and the largest of them is one
less. A bit range of at most 64 bits has such a largest value.
-/

namespace RegisterMap

lemma Bits.capacity_eq (width : Nat) : capacity width = 2 ^ width := Nat.one_shiftLeft width

lemma Bits.ones_eq (width : Nat) : ones width = 2 ^ width - 1 := by rw [ones, capacity_eq]

lemma Bits.ones_add_one (width : Nat) : ones width + 1 = 2 ^ width := by
  rw [ones_eq]
  exact Nat.sub_add_cancel Nat.one_le_two_pow

lemma BitRange.maxValue_eq_ok_iff {r : BitRange} {n : Nat} :
    r.maxValue = .ok n ↔ r.width ≤ maxWidth ∧ n = Bits.ones r.width := by
  unfold maxValue
  split_ifs with h
  · simp
    omega
  · simp [eq_comm]
    omega

/-- The largest value of a range, as a power of two. -/
lemma BitRange.natCast_maxValue {r : BitRange} {n : Nat} (h : r.maxValue = .ok n) :
    (n : Int) = 2 ^ r.width - 1 := by
  have hpow : (2 : Int) ^ r.width = Bits.ones r.width + 1 := by
    exact_mod_cast (Bits.ones_add_one r.width).symm
  rw [(maxValue_eq_ok_iff.mp h).2, hpow]
  omega

end RegisterMap
