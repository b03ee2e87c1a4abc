import Mathlib.Data.Int.Interval
import Mathlib.Data.Finset.Card
import Mathlib.Data.List.Forall2
import RegisterMap.Check.Enumeration
import RegisterMap.Proofs.Bits
import RegisterMap.Proofs.Distinct

/-!
# Enumerations that fit their bit fields

The check of a register's enumerations is silent exactly when each of them describes a bit field
that is not reserved and that no earlier enumeration describes, with values that fit the range and
do not repeat. An enumeration without problems is complete exactly when it names every number that
its range can hold: its values are as many as these numbers, and none is named twice.
-/

namespace RegisterMap

namespace RegisterEnum

variable {fields : List BitField} {refused : Option (List BitRange)} {path : Path}

/-! ### Values -/

lemma valueProblems_eq_nil_iff {e : RegisterEnum} {maxValue : Nat}
    {earlier : List (String × EnumValue)} {named : String × EnumValue} :
    e.valueProblems maxValue earlier named = [] ↔
      named.2.value ≤ maxValue ∧
        ∀ other ∈ earlier, other.2.value ≠ named.2.value ∧ other.1 ≠ named.1 := by
  simp only [valueProblems, List.append_eq_nil_iff, List.map_eq_nil_iff, Option.toList_eq_nil_iff,
    rival?_eq_none_iff, forall_and]
  split_ifs <;> simp <;> omega

lemma valuesProblems_eq_nil_iff {e : RegisterEnum} {maxValue : Nat} :
    e.valuesProblems maxValue = [] ↔
      (∀ v ∈ e.values, v.value ≤ maxValue) ∧
        (e.values.Pairwise fun v w => v.value ≠ w.value) ∧
        e.values.Pairwise fun v w => Name.constant v.name ≠ Name.constant w.name := by
  have hturn := inTurn_eq_nil_iff (f := e.valueProblems maxValue)
    (fun _ _ => valueProblems_eq_nil_iff) [] (keyed (Name.constant ·.name) e.values)
  rw [valuesProblems, hturn]
  simp [keyed, List.pairwise_map, List.pairwise_and_iff]

/-! ### Matching -/

/-- Whether an enumeration can be matched to a bit field: some bit field has its range, none of
these is reserved, and the range has a largest value. -/
structure Fits (fields : List BitField) (e : RegisterEnum) (maxValue : Nat) : Prop where
  exists_field : ∃ f ∈ fields, f.range = e.range
  not_reserved : ∀ f ∈ fields, f.range = e.range → f.isReserved = false
  maxValue_eq : e.range.maxValue = .ok maxValue

lemma isEmpty_matching_iff {e : RegisterEnum} :
    (fields.filter (·.range == e.range)).isEmpty = true ↔ ∀ f ∈ fields, f.range ≠ e.range := by
  simp [List.isEmpty_iff, List.filter_eq_nil_iff]

lemma any_isReserved_matching_iff {e : RegisterEnum} :
    (fields.filter (·.range == e.range)).any BitField.isReserved = true ↔
      ∃ f ∈ fields, f.range = e.range ∧ f.isReserved = true := by
  simp [List.any_filter]

lemma fits_of_matchField {earlier : List RegisterEnum} {e : RegisterEnum} {maxValue : Nat}
    (h : matchField fields refused earlier e = .accepted maxValue) :
    Fits fields e maxValue ∧ ∀ other ∈ earlier, other.range ≠ e.range := by
  unfold matchField at h
  dsimp only at h
  split_ifs at h with hempty _ hreserved
  split at h
  next => cases h
  next hrival =>
    split at h
    next hmax =>
      cases h
      rw [isEmpty_matching_iff] at hempty
      rw [any_isReserved_matching_iff] at hreserved
      exact ⟨⟨by simpa using hempty, by simpa using hreserved, hmax⟩,
        by simpa using List.find?_eq_none.mp hrival⟩
    next => cases h

lemma matchField_of_fits {earlier : List RegisterEnum} {e : RegisterEnum} {maxValue : Nat}
    (h : Fits fields e maxValue) (hrivals : ∀ other ∈ earlier, other.range ≠ e.range) :
    matchField fields refused earlier e = .accepted maxValue := by
  have hmatching : ¬ (fields.filter (·.range == e.range)).isEmpty = true := by
    simpa [isEmpty_matching_iff] using h.exists_field
  have hreserved : ¬ (fields.filter (·.range == e.range)).any BitField.isReserved = true := by
    simpa [any_isReserved_matching_iff] using h.not_reserved
  have hrival : earlier.find? (·.range == e.range) = none := by
    simpa [List.find?_eq_none] using hrivals
  unfold matchField
  rw [if_neg hmatching, if_neg hreserved, hrival]
  simp only [h.maxValue_eq]

lemma matchField_eq_accepted_iff {earlier : List RegisterEnum} {e : RegisterEnum}
    {maxValue : Nat} :
    matchField fields refused earlier e = .accepted maxValue ↔
      Fits fields e maxValue ∧ ∀ other ∈ earlier, other.range ≠ e.range :=
  ⟨fits_of_matchField, fun ⟨hfits, hrivals⟩ => matchField_of_fits hfits hrivals⟩

lemma matchField_eq_unresolved_iff {earlier : List RegisterEnum} {e : RegisterEnum} :
    matchField fields refused earlier e = .unresolved ↔
      (∀ f ∈ fields, f.range ≠ e.range) ∧ ∀ others, refused = some others → e.range ∈ others := by
  unfold matchField
  by_cases hnone : ∀ f ∈ fields, f.range ≠ e.range
  · rw [if_pos (isEmpty_matching_iff.mpr hnone)]
    cases refused with
    | none => simpa using hnone
    | some others => simpa using fun _ => hnone
  · rw [if_neg (mt isEmpty_matching_iff.mp hnone)]
    constructor
    · intro h
      split_ifs at h
      split at h
      · cases h
      · split at h <;> cases h
    · rintro ⟨h, _⟩
      exact absurd h hnone

/-! ### Settling -/

/-- Whether an enumeration has no problems of its own: it fits a bit field and its values are in
order, or no bit field has its range but a refused one may have had it. -/
def Sound (fields : List BitField) (refused : Option (List BitRange)) (e : RegisterEnum) : Prop :=
  (∃ maxValue, Fits fields e maxValue ∧ e.valuesProblems maxValue = []) ∨
    (∀ f ∈ fields, f.range ≠ e.range) ∧ ∀ others, refused = some others → e.range ∈ others

/-- Settling an enumeration records nothing exactly when it is matched with values in order, or left
unresolved. -/
lemma settle_diagnostics_eq_nil_iff_matchField {earlier : List RegisterEnum} {e : RegisterEnum} :
    (settle path fields refused earlier e).report.diagnostics = [] ↔
      (∃ maxValue, matchField fields refused earlier e = .accepted maxValue ∧
        e.valuesProblems maxValue = []) ∨ matchField fields refused earlier e = .unresolved := by
  unfold settle
  cases matchField fields refused earlier e <;> simp

lemma settle_diagnostics_eq_nil_iff {earlier : List RegisterEnum} {e : RegisterEnum} :
    (settle path fields refused earlier e).report.diagnostics = [] ↔
      Sound fields refused e ∧
        ∀ other ∈ earlier, (∃ f ∈ fields, f.range = e.range) → other.range ≠ e.range := by
  simp only [settle_diagnostics_eq_nil_iff_matchField, matchField_eq_accepted_iff,
    matchField_eq_unresolved_iff]
  constructor
  · rintro (⟨maxValue, ⟨hfits, hrivals⟩, hvalues⟩ | ⟨hnone, hrefused⟩)
    · exact ⟨.inl ⟨maxValue, hfits, hvalues⟩, fun other hother _ => hrivals other hother⟩
    · exact ⟨.inr ⟨hnone, hrefused⟩, fun _ _ ⟨f, hf, heq⟩ => absurd heq (hnone f hf)⟩
  · rintro ⟨⟨maxValue, hfits, hvalues⟩ | hunresolved, hrivals⟩
    · exact .inl ⟨maxValue, ⟨hfits, fun o ho => hrivals o ho hfits.exists_field⟩, hvalues⟩
    · exact .inr hunresolved

/-- Settling an enumeration changes nothing but whether it is complete. -/
lemma settle_outcome (path : Path) (fields : List BitField) (refused : Option (List BitRange))
    (earlier : List RegisterEnum) (e : RegisterEnum) :
    (settle path fields refused earlier e).outcome =
      { e with isComplete := (settle path fields refused earlier e).outcome.isComplete } := by
  unfold settle
  cases matchField fields refused earlier e <;> rfl

lemma settle_isComplete {earlier : List RegisterEnum} {e : RegisterEnum} {maxValue : Nat}
    (h : matchField fields refused earlier e = .accepted maxValue) :
    (settle path fields refused earlier e).outcome.isComplete =
      (e.values.length == maxValue + 1) := by
  simp [settle, h]

lemma settleAll_outcome (enums : List RegisterEnum) :
    (settleAll path fields refused enums).outcome =
      inTurn (fun earlier e => [(settle path fields refused earlier e).outcome]) [] enums := by
  simp only [settleAll, List.map_eq_flatMap, flatMap_inTurn, List.flatMap_singleton]

lemma settleAll_diagnostics (enums : List RegisterEnum) :
    (settleAll path fields refused enums).report.diagnostics =
      inTurn (fun earlier e => (settle path fields refused earlier e).report.diagnostics) []
        enums := by
  have hflat (settled : List (Checked RegisterEnum)) :
      Report.diagnostics (settled.flatMap (·.report)) =
        settled.flatMap (·.report.diagnostics) := by
    simp [Report.diagnostics, List.filterMap_flatMap]
  simp only [settleAll, hflat]
  simp only [flatMap_inTurn, List.flatMap_singleton]

/-- The check of the enumerations of a register is silent exactly when each is sound and no two
describe the same bit field. -/
lemma settleAll_diagnostics_eq_nil_iff {enums : List RegisterEnum} :
    (settleAll path fields refused enums).report.diagnostics = [] ↔
      (∀ e ∈ enums, Sound fields refused e) ∧
        enums.Pairwise fun o e => (∃ f ∈ fields, f.range = e.range) → o.range ≠ e.range := by
  have hturn := inTurn_eq_nil_iff
    (f := fun earlier e => (settle path fields refused earlier e).report.diagnostics)
    (fun _ _ => settle_diagnostics_eq_nil_iff) [] enums
  rw [settleAll_diagnostics, hturn]
  simp

/-- Settling the enumerations of a register keeps them in order, and changes nothing but whether
they are complete. -/
lemma forall₂_settleAll (enums : List RegisterEnum) :
    List.Forall₂ (fun e settled => settled = { e with isComplete := settled.isComplete }) enums
      (settleAll path fields refused enums).outcome := by
  rw [settleAll_outcome]
  suffices h : ∀ earlier, List.Forall₂
      (fun e settled => settled = { e with isComplete := settled.isComplete }) enums
      (inTurn (fun earlier e => [(settle path fields refused earlier e).outcome]) earlier enums)
    from h []
  intro earlier
  induction enums generalizing earlier with
  | nil => exact .nil
  | cons e rest ih => exact .cons (settle_outcome path fields refused earlier e) (ih (earlier ++ [e]))

/-! ### Completeness -/

/-- Distinct numbers from zero to a maximum are all of these numbers exactly when they are as many
as these. -/
lemma length_eq_iff_mem {numbers : List Int} {maximum : Nat} (hdistinct : numbers.Nodup)
    (hbound : ∀ n ∈ numbers, 0 ≤ n ∧ n ≤ maximum) :
    numbers.length = maximum + 1 ↔ ∀ n, n ∈ numbers ↔ 0 ≤ n ∧ n ≤ maximum := by
  have hcard : numbers.toFinset.card = numbers.length := List.toFinset_card_of_nodup hdistinct
  have hall : (Finset.Icc (0 : Int) maximum).card = maximum + 1 := by
    rw [Int.card_Icc]
    omega
  have hsub : numbers.toFinset ⊆ Finset.Icc (0 : Int) maximum := by
    intro n hn
    exact Finset.mem_Icc.mpr (hbound n (List.mem_toFinset.mp hn))
  constructor
  · intro hlength
    have heq := Finset.eq_of_subset_of_card_le hsub (by omega)
    intro n
    rw [← List.mem_toFinset, heq, Finset.mem_Icc]
  · intro hmem
    have heq : numbers.toFinset = Finset.Icc (0 : Int) maximum := by
      ext n
      rw [List.mem_toFinset, hmem, Finset.mem_Icc]
    rw [← hcard, heq, hall]

/-- What is known of an enumeration of a register without problems and without refused bit fields. -/
lemma fits_of_settleAll {enums : List RegisterEnum} {e : RegisterEnum}
    (hclean : (settleAll path fields (some []) enums).report.diagnostics = [])
    (he : e ∈ (settleAll path fields (some []) enums).outcome) :
    ∃ maxValue, Fits fields e maxValue ∧ e.valuesProblems maxValue = [] ∧
      e.isComplete = (e.values.length == maxValue + 1) := by
  obtain ⟨hsound, hpairs⟩ := settleAll_diagnostics_eq_nil_iff.mp hclean
  rw [settleAll_outcome, mem_inTurn_iff] at he
  obtain ⟨before, o, after, rfl, he⟩ := he
  rw [List.nil_append, List.mem_singleton] at he
  have hkept := settle_outcome path fields (some []) before o
  rw [← he] at hkept
  have hrange : e.range = o.range := by rw [hkept]
  have hvalues : e.values = o.values := by rw [hkept]
  obtain ⟨maxValue, hfits, hproblems⟩ | ⟨_, hexempt⟩ := hsound o (by simp)
  · have hrivals : ∀ other ∈ before, other.range ≠ o.range := by
      intro other hother
      exact (List.pairwise_append.mp hpairs).2.2 other hother o (by simp) hfits.exists_field
    have haccepted : matchField fields (some []) before o = .accepted maxValue :=
      matchField_eq_accepted_iff.mpr ⟨hfits, hrivals⟩
    refine ⟨maxValue, ⟨?_, ?_, ?_⟩, ?_, ?_⟩
    · rw [hrange]
      exact hfits.exists_field
    · rw [hrange]
      exact hfits.not_reserved
    · rw [hrange]
      exact hfits.maxValue_eq
    · rw [valuesProblems_eq_nil_iff] at hproblems ⊢
      rwa [hvalues]
    · rw [hvalues, he]
      exact settle_isComplete haccepted
  · exact absurd (hexempt [] rfl) List.not_mem_nil

/-- No two enumerations of a register without problems have the same range. -/
lemma pairwise_range_settleAll {enums : List RegisterEnum}
    (hclean : (settleAll path fields (some []) enums).report.diagnostics = []) :
    (settleAll path fields (some []) enums).outcome.Pairwise fun e o => e.range ≠ o.range := by
  obtain ⟨hsound, hpairs⟩ := settleAll_diagnostics_eq_nil_iff.mp hclean
  have hdistinct : enums.Pairwise fun e o => e.range ≠ o.range := by
    refine hpairs.imp_of_mem fun {_ o} _ ho hne => hne ?_
    obtain ⟨_, hfits, _⟩ | ⟨_, hexempt⟩ := hsound o ho
    · exact hfits.exists_field
    · exact absurd (hexempt [] rfl) List.not_mem_nil
  have hranges : enums.map (·.range) =
      (settleAll path fields (some []) enums).outcome.map (·.range) := by
    rw [← List.forall₂_eq_eq_eq, List.forall₂_map_left_iff, List.forall₂_map_right_iff]
    exact (forall₂_settleAll enums).imp fun _ _ h => by rw [h]
  have hmapped := List.pairwise_map.mpr hdistinct
  rw [hranges] at hmapped
  exact List.pairwise_map.mp hmapped

end RegisterEnum

end RegisterMap
