import RegisterMap.Proofs.Procedure.Coverage

/-!
# The verdict on the bits of a register

The scan of the bits records nothing exactly when the bit fields lie inside the register, share no
bit, and leave no bit uncovered. So the verdict does not depend on the order of the bit fields. A
refused bit field only covers bits: taking one more into account takes no diagnostic of the bit
fields away, and adds none.
-/

namespace RegisterMap

namespace Coverage

/-! ### Problems of bits that no range covers -/

variable {size : Nat} {ranges : List BitRange}

lemma length_undefinedProblems_le (size : Nat) (ranges : List BitRange) :
    (undefinedProblems size ranges).length ≤ 1 := by
  unfold undefinedProblems
  split <;> simp

/-- More ranges leave fewer bits uncovered. -/
lemma length_undefinedProblems_append_le (extra : List BitRange) :
    (undefinedProblems size (ranges ++ extra)).length ≤ (undefinedProblems size ranges).length := by
  by_cases h : undefinedProblems size ranges = []
  · have hmore : undefinedProblems size (ranges ++ extra) = [] := by
      rw [undefinedProblems_eq_nil_iff] at h ⊢
      intro bit hbit
      obtain ⟨r, hr, hcontains⟩ := h bit hbit
      exact ⟨r, List.mem_append_left extra hr, hcontains⟩
    rw [hmore]
    exact Nat.zero_le _
  · exact Nat.le_trans (length_undefinedProblems_le size _) (List.length_pos_iff.mpr h)

end Coverage

lemma Context.record_eq_self_iff {c : Context} {ds : List Diagnostic} :
    c.record ds = c ↔ ds = [] := by
  refine ⟨fun h => ?_, fun h => ?_⟩
  · exact List.append_right_eq_self.mp (congrArg diagnostics h)
  · rw [h, record_nil]

namespace Procedure

open BitRange

/-! ### The verdict -/

variable {r : Register} {refused : Option (List BitRange)} {c : Context}

/-- The scan of the bits records nothing exactly when the bit fields lie inside the register and
share no bit, and no bit is left over unless some refused bit field has no usable range. -/
lemma run_checkBitFields_eq_self_iff :
    (checkBitFields r refused).run c = .ok () c ↔
      (∀ f ∈ r.bitFields, f.range.msb < r.size.bits) ∧
      r.bitFields.Pairwise (fun f g => f.range.Apart g.range) ∧
      ∀ others, refused = some others → ∀ bit < r.size.bits,
        (∃ f ∈ r.bitFields, f.range.contains bit = true) ∨
          ∃ other ∈ others, other.contains bit = true := by
  have hsilent : (checkBitFields r refused).run c = .ok () c ↔
      Coverage.problems r.size.bits (r.bitFields.map (·.range)) refused = [] := by
    rw [run_checkBitFields, EStateM.Result.ok.injEq, eq_self, true_and, Context.record_eq_self_iff,
      Coverage.diagnostics_eq_nil_iff]
  rw [hsilent, Coverage.problems_eq_nil_iff, List.forall_mem_map, List.pairwise_map]
  simp only [List.mem_append, List.mem_map, or_and_right, exists_or, exists_exists_and_eq_and]

/-- The uncovered bits come after what the bit fields give rise to by themselves. -/
lemma run_checkBitFields_some (others : List BitRange) :
    (checkBitFields r (some others)).run c = .ok () (c.record (Coverage.diagnostics c.path r none ++
      (Coverage.undefinedProblems r.size.bits (r.bitFields.map (·.range) ++ others)).map
        fun problem => .constraint .register c.path problem.message)) := by
  rw [run_checkBitFields]
  simp [Coverage.diagnostics, Coverage.problems]

/-- What makes the scan silent does not depend on the order of the bit fields. -/
lemma run_checkBitFields_perm {fields : List BitField} (h : fields.Perm r.bitFields) :
    (checkBitFields { r with bitFields := fields } refused).run c = .ok () c ↔
      (checkBitFields r refused).run c = .ok () c := by
  have happart : fields.Pairwise (fun f g => f.range.Apart g.range) ↔
      r.bitFields.Pairwise (fun f g => f.range.Apart g.range) :=
    h.pairwise_iff Apart.symm
  simp only [run_checkBitFields_eq_self_iff, happart, h.mem_iff]

/-- The exact verdict on the bits of a register. The scan always comes to its end, and adds nothing
to the context exactly when every bit field lies inside the register, no two of them share a bit,
and every bit of the register lies in a bit field or in the range of a refused one, or some refused
bit field has no usable range. The order of the bit fields does not matter for it, and a refused bit
field that is taken into account adds no diagnostic, whatever bits it has. -/
theorem checkBitFields_verdict (r : Register) (c : Context) :
    (∀ refused, ∃ ds, (checkBitFields r refused).run c = .ok () (c.record ds)) ∧
    (∀ others, (checkBitFields r (some others)).run c = .ok () c ↔
      (∀ f ∈ r.bitFields, f.range.msb < r.size.bits) ∧
      r.bitFields.Pairwise (fun f g => f.range.Apart g.range) ∧
      ∀ bit < r.size.bits, (∃ f ∈ r.bitFields, f.range.contains bit = true) ∨
        ∃ other ∈ others, other.contains bit = true) ∧
    ((checkBitFields r none).run c = .ok () c ↔
      (∀ f ∈ r.bitFields, f.range.msb < r.size.bits) ∧
      r.bitFields.Pairwise (fun f g => f.range.Apart g.range)) ∧
    (∀ fields, fields.Perm r.bitFields → ∀ refused,
      (checkBitFields { r with bitFields := fields } refused).run c = .ok () c ↔
        (checkBitFields r refused).run c = .ok () c) ∧
    ∀ others extra, ∃ ds us us',
      (checkBitFields r none).run c = .ok () (c.record ds) ∧
      (checkBitFields r (some others)).run c = .ok () (c.record (ds ++ us)) ∧
      (checkBitFields r (some (others ++ extra))).run c = .ok () (c.record (ds ++ us')) ∧
      us'.length ≤ us.length := by
  refine ⟨fun refused => ⟨_, run_checkBitFields r refused c⟩, fun others => ?_, ?_,
    fun fields hperm refused => run_checkBitFields_perm hperm, fun others extra => ?_⟩
  · rw [run_checkBitFields_eq_self_iff]
    simp
  · rw [run_checkBitFields_eq_self_iff]
    simp
  · refine ⟨_, _, _, run_checkBitFields r none c, run_checkBitFields_some others,
      run_checkBitFields_some (others ++ extra), ?_⟩
    rw [List.length_map, List.length_map, ← List.append_assoc]
    exact Coverage.length_undefinedProblems_append_le extra

end Procedure

end RegisterMap
