import RegisterMap.Proofs.Enumeration
import RegisterMap.Proofs.Procedure.Enumeration

/-!
# The verdict on enumerations

The loop over the enumerations of a register records nothing exactly when each of them either is
exempt, since only a refused bit field may have its range, or is the first to describe a bit field,
by values that fit and do not repeat. Whatever it records, it leaves each enumeration as it is but
for those that describe a bit field: these are told complete when their values are as many as the
numbers that the range can hold.
-/

namespace RegisterMap

namespace RegisterEnum

variable {fields : List BitField} {refused : Option (List BitRange)} {path : Path}
  {earlier : List RegisterEnum} {e : RegisterEnum}

/-! ### Enumerations that are in order -/

/-- No bit field has the range of the enumeration, but a refused one has it, or may have it. -/
structure IsExempt (fields : List BitField) (refused : Option (List BitRange))
    (e : RegisterEnum) : Prop where
  no_field : ∀ f ∈ fields, f.range ≠ e.range
  mem_refused : ∀ others, refused = some others → e.range ∈ others

/-- The enumeration is the first that describes a bit field, which is not reserved and whose numbers
have at most 64 bits. -/
structure Describes (fields : List BitField) (earlier : List RegisterEnum)
    (e : RegisterEnum) : Prop where
  exists_field : ∃ f ∈ fields, f.range = e.range
  not_reserved : ∀ f ∈ fields, f.range = e.range → f.isReserved = false
  is_first : ∀ other ∈ earlier, other.range ≠ e.range
  width_le : e.range.width ≤ 64

lemma describes_iff : Describes fields earlier e ↔
    (∃ f ∈ fields, f.range = e.range) ∧
      (∀ f ∈ fields, f.range = e.range → f.isReserved = false) ∧
      (∀ other ∈ earlier, other.range ≠ e.range) ∧ e.range.width ≤ 64 :=
  ⟨fun ⟨hfield, hreserved, hfirst, hwidth⟩ => ⟨hfield, hreserved, hfirst, hwidth⟩,
    fun ⟨hfield, hreserved, hfirst, hwidth⟩ => ⟨hfield, hreserved, hfirst, hwidth⟩⟩

instance (fields : List BitField) (earlier : List RegisterEnum) (e : RegisterEnum) :
    Decidable (Describes fields earlier e) := decidable_of_iff _ describes_iff.symm

/-- The values are numbers that the range can hold, and neither they nor their names as constants
repeat. -/
structure ValuesFit (e : RegisterEnum) : Prop where
  value_le : ∀ v ∈ e.values, v.value ≤ 2 ^ e.range.width - 1
  values_distinct : e.values.Pairwise fun v w => v.value ≠ w.value
  names_distinct : e.values.Pairwise fun v w => Name.constant v.name ≠ Name.constant w.name

/-- The enumeration with whether it names every number of its range, if it describes a bit field. -/
def completed (fields : List BitField) (earlier : List RegisterEnum) (e : RegisterEnum) :
    RegisterEnum :=
  if Describes fields earlier e then
    { e with isComplete := decide (e.values.length = 2 ^ e.range.width) }
  else e

/-- The enumerations of a register, each beside those before it. -/
def completedAll (fields : List BitField) (enums : List RegisterEnum) : List RegisterEnum :=
  (List.finRange enums.length).map fun i : Fin enums.length =>
    completed fields (enums.take i) (enums.get i)

/-! ### Matching and settling -/

/-- The enumerations that are matched are those that describe a bit field. -/
lemma matchField_eq_accepted_iff_describes {maxValue : Nat} :
    matchField fields refused earlier e = .accepted maxValue ↔
      Describes fields earlier e ∧ e.range.maxValue = .ok maxValue := by
  rw [matchField_eq_accepted_iff]
  constructor
  · rintro ⟨hfits, hfirst⟩
    have hwidth : e.range.width ≤ 64 := (BitRange.maxValue_eq_ok_iff.mp hfits.maxValue_eq).1
    exact ⟨⟨hfits.exists_field, hfits.not_reserved, hfirst, hwidth⟩, hfits.maxValue_eq⟩
  · rintro ⟨h, hmax⟩
    exact ⟨⟨h.exists_field, h.not_reserved, hmax⟩, h.is_first⟩

lemma Describes.maxValue_eq (h : Describes fields earlier e) :
    e.range.maxValue = .ok (Bits.ones e.range.width) :=
  BitRange.maxValue_eq_ok_iff.mpr ⟨h.width_le, rfl⟩

lemma valuesProblems_eq_nil_iff_valuesFit {maxValue : Nat} (h : e.range.maxValue = .ok maxValue) :
    e.valuesProblems maxValue = [] ↔ e.ValuesFit := by
  rw [valuesProblems_eq_nil_iff, BitRange.natCast_maxValue h]
  exact ⟨fun ⟨hle, hvalues, hnames⟩ => ⟨hle, hvalues, hnames⟩,
    fun ⟨hle, hvalues, hnames⟩ => ⟨hle, hvalues, hnames⟩⟩

/-- An enumeration is settled without diagnostics if it is exempt, or describes a bit field by
values that fit. -/
lemma settle_diagnostics_eq_nil_iff_describes :
    (settle path fields refused earlier e).report.diagnostics = [] ↔
      IsExempt fields refused e ∨ Describes fields earlier e ∧ e.ValuesFit := by
  rw [settle_diagnostics_eq_nil_iff_matchField, matchField_eq_unresolved_iff]
  constructor
  · rintro (⟨maxValue, hmatch, hvalues⟩ | ⟨hnone, hrefused⟩)
    · obtain ⟨hdescribes, hmax⟩ := matchField_eq_accepted_iff_describes.mp hmatch
      exact .inr ⟨hdescribes, (valuesProblems_eq_nil_iff_valuesFit hmax).mp hvalues⟩
    · exact .inl ⟨hnone, hrefused⟩
  · rintro (hexempt | ⟨hdescribes, hvalues⟩)
    · exact .inr ⟨hexempt.no_field, hexempt.mem_refused⟩
    · exact .inl ⟨_, matchField_eq_accepted_iff_describes.mpr ⟨hdescribes, hdescribes.maxValue_eq⟩,
        (valuesProblems_eq_nil_iff_valuesFit hdescribes.maxValue_eq).mpr hvalues⟩

lemma settle_outcome_eq_completed :
    (settle path fields refused earlier e).outcome = completed fields earlier e := by
  unfold completed
  split_ifs with h
  · have hmatch : matchField fields refused earlier e = .accepted (Bits.ones e.range.width) :=
      matchField_eq_accepted_iff_describes.mpr ⟨h, h.maxValue_eq⟩
    simp [settle, hmatch, Bits.ones_add_one, beq_eq_decide]
  · unfold settle
    cases hmatch : matchField fields refused earlier e with
    | accepted maxValue => exact absurd (matchField_eq_accepted_iff_describes.mp hmatch).1 h
    | _ => rfl

lemma settleAll_outcome_eq_completedAll (enums : List RegisterEnum) :
    (settleAll path fields refused enums).outcome = completedAll fields enums := by
  rw [settleAll_outcome, inTurn_eq_flatMap, completedAll, List.map_eq_flatMap]
  simp only [settle_outcome_eq_completed]

end RegisterEnum

namespace Procedure

open RegisterEnum

/-! ### The verdict -/

/-- The exact verdict on the enumerations of a register. The loop over them always comes to its end,
and records nothing exactly when each is exempt, or is the first to describe a bit field by values
that fit. What becomes of them does not depend on what is recorded: the ones that describe a bit
field are told complete if their values are as many as the numbers of their range, and the others
stay as they are. -/
theorem matchEnums_verdict (fields : List BitField) (refused : Option (List BitRange))
    (enums : List RegisterEnum) (c : Context) :
    ∃ settled ds, (matchEnums fields refused enums []).run c = .ok settled (c.record ds) ∧
      (ds = [] ↔ ∀ i : Fin enums.length, IsExempt fields refused (enums.get i) ∨
        Describes fields (enums.take i) (enums.get i) ∧ (enums.get i).ValuesFit) ∧
      settled = completedAll fields enums := by
  have hrun : (matchEnums fields refused enums []).run c =
      .ok (settleAll c.path fields refused enums).outcome
        (c.record (settleAll c.path fields refused enums).report.diagnostics) :=
    run_matchEnums claims_nil c
  refine ⟨_, _, hrun, ?_, settleAll_outcome_eq_completedAll enums⟩
  rw [settleAll_diagnostics, inTurn_eq_flatMap, List.flatMap_eq_nil_iff]
  simp only [List.mem_finRange, true_imp_iff, settle_diagnostics_eq_nil_iff_describes]

end Procedure

end RegisterMap
