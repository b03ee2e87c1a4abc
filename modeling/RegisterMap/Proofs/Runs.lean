import RegisterMap.Proofs.Coverage

/-!
# Maximal runs of bits

The bits that no range covers are told as runs. Going down from the highest bit, each bit that is
free is put before the runs above it, so these always cover the free bits so far and leave a gap
between any two of them. Hence they are the maximal runs, each once, from the lowest upwards.
-/

namespace RegisterMap

open BitRange

variable {Free : Nat → Prop} {run : BitRange} {ranges : List BitRange}

/-! ### Runs of the bits with a property -/

/-- All bits of the run have the property, and the bits next to it have not. -/
structure BitRange.IsMaximalRun (Free : Nat → Prop) (run : BitRange) : Prop where
  forall_mem : ∀ bit, run.contains bit = true → Free bit
  not_above : ¬ Free (run.msb + 1)
  not_below : ∀ bit, bit + 1 = run.lsb → ¬ Free bit

/-- A maximal run is found by its lowest bit. -/
lemma BitRange.IsMaximalRun.eq_of_contains {r s : BitRange} (hr : r.IsMaximalRun Free)
    (hs : s.IsMaximalRun Free) (hbit : s.contains r.lsb = true) : r = s := by
  obtain ⟨hle, hle'⟩ := contains_iff.mp hbit
  have hlsb : r.lsb = s.lsb := by
    by_contra hne
    have hbelow : s.contains (r.lsb - 1) = true := contains_iff.mpr (by omega)
    exact hr.not_below (r.lsb - 1) (by omega) (hs.forall_mem _ hbelow)
  have hmsb : r.msb = s.msb := by
    have hr' := r.lsb_le_msb
    rcases Nat.lt_trichotomy r.msb s.msb with hlt | heq | hgt
    · have habove : s.contains (r.msb + 1) = true := contains_iff.mpr (by omega)
      exact absurd (hs.forall_mem _ habove) hr.not_above
    · exact heq
    · have habove : r.contains (s.msb + 1) = true := contains_iff.mpr (by omega)
      exact absurd (hr.forall_mem _ habove) hs.not_above
  cases r
  cases s
  simp_all

/-- The ranges are the maximal runs of the bits with a property, from the lowest upwards. -/
structure ListsRuns (Free : Nat → Prop) (ranges : List BitRange) : Prop where
  mem_iff : ∀ run, run ∈ ranges ↔ run.IsMaximalRun Free
  ascending : ranges.Pairwise fun r s => r.msb < s.lsb

/-- The ranges cover exactly the bits with a property, and leave a gap between any two of them. -/
structure SeparatesRuns (Free : Nat → Prop) (ranges : List BitRange) : Prop where
  covers_iff : ∀ bit, (∃ run ∈ ranges, run.contains bit = true) ↔ Free bit
  apart : ranges.Pairwise fun r s => r.msb + 1 < s.lsb

namespace SeparatesRuns

lemma free_of_mem (h : SeparatesRuns Free ranges) (hrun : run ∈ ranges) {bit : Nat}
    (hbit : run.contains bit = true) : Free bit := (h.covers_iff bit).mp ⟨run, hrun, hbit⟩

/-- Two of the ranges are the same, or have a gap between them. -/
lemma eq_or_apart (h : SeparatesRuns Free ranges) {r s : BitRange} (hr : r ∈ ranges)
    (hs : s ∈ ranges) : r = s ∨ r.msb + 1 < s.lsb ∨ s.msb + 1 < r.lsb := by
  obtain ⟨i, hi, rfl⟩ := List.mem_iff_getElem.mp hr
  obtain ⟨j, hj, rfl⟩ := List.mem_iff_getElem.mp hs
  have hapart := List.pairwise_iff_getElem.mp h.apart
  rcases Nat.lt_trichotomy i j with hij | rfl | hji
  · exact .inr (.inl (hapart i j hi hj hij))
  · exact .inl rfl
  · exact .inr (.inr (hapart j i hj hi hji))

lemma isMaximalRun_of_mem (h : SeparatesRuns Free ranges) (hrun : run ∈ ranges) :
    run.IsMaximalRun Free where
  forall_mem _ hbit := h.free_of_mem hrun hbit
  not_above hfree := by
    obtain ⟨other, hother, hbit⟩ := (h.covers_iff _).mpr hfree
    have hle := run.lsb_le_msb
    rw [contains_iff] at hbit
    rcases h.eq_or_apart hrun hother with rfl | hlt | hlt <;> omega
  not_below bit hbelow hfree := by
    obtain ⟨other, hother, hbit⟩ := (h.covers_iff _).mpr hfree
    have hle := run.lsb_le_msb
    rw [contains_iff] at hbit
    rcases h.eq_or_apart hrun hother with rfl | hlt | hlt <;> omega

lemma eq_nil_iff (h : SeparatesRuns Free ranges) : ranges = [] ↔ ∀ bit, ¬ Free bit := by
  simp only [← h.covers_iff, List.eq_nil_iff_forall_not_mem]
  constructor
  · rintro hnone bit ⟨run, hrun, _⟩
    exact hnone run hrun
  · intro hnone run hrun
    exact hnone run.lsb ⟨run, hrun, contains_lsb run⟩

lemma listsRuns (h : SeparatesRuns Free ranges) : ListsRuns Free ranges where
  mem_iff run := by
    refine ⟨h.isMaximalRun_of_mem, fun hmaximal => ?_⟩
    obtain ⟨other, hother, hbit⟩ :=
      (h.covers_iff run.lsb).mpr (hmaximal.forall_mem _ (contains_lsb run))
    rwa [hmaximal.eq_of_contains (h.isMaximalRun_of_mem hother) hbit]
  ascending := h.apart.imp Nat.lt_of_succ_lt

end SeparatesRuns

/-! ### The runs that are told -/

namespace Coverage

variable {free : Nat → Bool} {bit : Nat} {above : List BitRange}

/-- Putting a free bit before the runs above it covers this bit too, with a gap to the runs that it
does not touch. -/
lemma separatesRuns_extend (hbit : free bit = true ↔ Free bit)
    (h : SeparatesRuns (fun b => bit < b ∧ Free b) above) :
    SeparatesRuns (fun b => bit ≤ b ∧ Free b) (runs.extend free bit above) := by
  have habove : ∀ run ∈ above, bit < run.lsb := fun run hrun =>
    (h.free_of_mem hrun (contains_lsb run)).1
  have hcovers (b : Nat) : bit ≤ b ∧ Free b ↔
      (b = bit ∧ free bit = true) ∨ ∃ run ∈ above, run.contains b = true := by
    rw [h.covers_iff, hbit]
    rcases Nat.lt_trichotomy bit b with hlt | rfl | hgt
    · simp [hlt, hlt.le, hlt.ne']
    · simp
    · simp [hgt.not_ge, hgt.not_gt, hgt.ne]
  have hcons (r : BitRange) (rs : List BitRange) (b : Nat) :
      (∃ run ∈ r :: rs, run.contains b = true) ↔
        r.contains b = true ∨ ∃ run ∈ rs, run.contains b = true := by
    simp [or_and_right, exists_or]
  unfold runs.extend
  split_ifs with hfree
  · cases above with
    | nil =>
      refine ⟨fun b => ?_, List.pairwise_singleton _ _⟩
      rw [hcovers]
      simp [hfree, contains_iff, single, Nat.le_antisymm_iff, and_comm]
    | cons run others =>
      obtain ⟨hrun, hothers⟩ := List.pairwise_cons.mp h.apart
      have hlsb := habove run List.mem_cons_self
      have hmsb := run.lsb_le_msb
      dsimp only
      -- A run that the bit touches begins with it from now on, and the gaps above it stay.
      split_ifs with htouch
      · refine ⟨fun b => ?_, List.pairwise_cons.mpr ⟨hrun, hothers⟩⟩
        rw [hcovers, hcons, hcons run, ← or_assoc]
        refine or_congr_left ?_
        simp only [contains_iff, hfree, and_true]
        omega
      · refine ⟨fun b => ?_, List.pairwise_cons.mpr ⟨?_, h.apart⟩⟩
        · rw [hcovers, hcons (single bit)]
          refine or_congr_left ?_
          simp only [contains_iff, single, hfree, and_true]
          omega
        · intro s hs
          rcases List.mem_cons.mp hs with rfl | hs
          · simp only [single]
            omega
          · have := hrun s hs
            simp only [single]
            omega
  · refine ⟨fun b => ?_, h.apart⟩
    rw [hcovers]
    simp [hfree]

/-- From a bit on, the runs that are told separate the free bits from there on. -/
lemma separatesRuns_foldr {size : Nat} (count : Nat) (hsize : bit + count = size) :
    SeparatesRuns (fun b => bit ≤ b ∧ b < size ∧ free b = true)
      ((List.range' bit count).foldr (runs.extend free) []) := by
  -- Each step puts the lowest bit in front, so the induction is on the number of bits from it on.
  induction count generalizing bit with
  | zero =>
    refine ⟨fun b => ?_, .nil⟩
    simp
    omega
  | succ count ih =>
    rw [List.range'_succ, List.foldr_cons]
    refine separatesRuns_extend ?_ (ih (by omega))
    simp
    omega

lemma separatesRuns_runs (free : Nat → Bool) (size : Nat) :
    SeparatesRuns (fun b => b < size ∧ free b = true) (runs free size) := by
  have h := @separatesRuns_foldr free 0 size size (Nat.zero_add size)
  rw [runs, List.range_eq_range']
  simpa using h

/-- If there are bits that no range covers, their runs are told. -/
lemma undefinedProblems_eq (size : Nat) (ranges : List BitRange) :
    undefinedProblems size ranges =
      if runs (fun bit => (owner? ranges bit).isNone) size = [] then []
      else [.undefined (runs (fun bit => (owner? ranges bit).isNone) size)] := by
  unfold undefinedProblems
  split <;> simp_all

end Coverage

end RegisterMap
