import RegisterMap.Fragment.Basic
import RegisterMap.Proofs.Part
import RegisterMap.Proofs.RangeText
import RegisterMap.Proofs.Toml.Value

/-!
# Fragments of the parts of a register

The fragment of an enum value, of an enumeration or of a bit field denotes a table that is accepted
without diagnostics, and it gives back the part. Only an empty description is lost: it is not
written.
-/

namespace RegisterMap

variable {α : Type} {path : Path} {t : Table}

/-! ### Tables that are accepted -/

lemma Table.unknownKeyProblems_eq_nil_iff {kind : TableKind} {allowed : List String} :
    t.unknownKeyProblems kind path allowed = [] ↔ t.keys ⊆ allowed := by
  simp [unknownKeyProblems, List.filter_eq_nil_iff, List.subset_def]

/-- If all tables of a list are accepted, then nothing is refused or reported. -/
lemma CheckedList.ofTables_of_forall₂ {check : Table → Checked (Option α)} {ts : List Table}
    {as : List α} (h : List.Forall₂ (fun t a => (check t).Accepts a) ts as) :
    (ofTables check ts).accepted = as ∧ (ofTables check ts).refused = [] ∧
      (ofTables check ts).report.diagnostics = [] := by
  induction h with
  | nil => exact ⟨rfl, rfl, rfl⟩
  | cons ha _ ih =>
    obtain ⟨haccepted, hrefused, hclean⟩ := ih
    simp [ofTables, ha.1, ha.2, haccepted, hrefused, hclean]

lemma EnumValue.check_accepts {v : EnumValue} (hname : t.name "name" = .valid v.name)
    (hvalue : t.unsigned "value" Table.maxUnsigned = .valid v.value)
    (hdescription : (t.text "description").optional? = some v.description)
    (hkeys : t.keys ⊆ keys) : (check path t).Accepts v := by
  refine ⟨check_outcome_eq_some_iff.mpr ⟨hname, hvalue, hdescription⟩, ?_⟩
  simp only [check, Report.diagnostics_ofDiagnostics, List.append_eq_nil_iff]
  exact ⟨⟨⟨Reading.requiredProblems_eq_nil_iff.mpr ⟨_, hname⟩,
    Table.unknownKeyProblems_eq_nil_iff.mpr hkeys⟩,
    Reading.requiredProblems_eq_nil_iff.mpr ⟨_, hvalue⟩⟩,
    Reading.problems_eq_nil_iff.mpr ⟨_, hdescription⟩⟩

lemma RegisterEnum.check_accepts {e : RegisterEnum} (hname : t.name "name" = .valid e.name)
    (hrange : t.convertedText "bit" Conversion.bitRange = .valid e.range)
    (hdescription : (t.text "description").optional? = some e.description) {ts : List Table}
    (hvalues : t.tables "values" = .valid ts)
    (haccepts : List.Forall₂ (fun t v => (EnumValue.check (inside path e.name) t).Accepts v) ts
      e.values)
    (hincomplete : e.isComplete = false) (hkeys : t.keys ⊆ keys) : (check path t).Accepts e := by
  obtain ⟨haccepted, _, hclean⟩ := CheckedList.ofTables_of_forall₂ haccepts
  refine ⟨check_outcome_eq_some_iff.mpr
    ⟨hname, hrange, hdescription, ⟨ts, hvalues, haccepted.symm⟩, hincomplete⟩, ?_⟩
  have hreading : (CheckedList.ofReading (EnumValue.check (inside path e.name))
      (t.tables "values")).report.diagnostics = [] := by
    rwa [CheckedList.ofReading, hvalues]
  simp only [check, Report.diagnostics_append, Report.diagnostics_ofDiagnostics,
    List.append_eq_nil_iff]
  refine ⟨⟨⟨⟨⟨Reading.requiredProblems_eq_nil_iff.mpr ⟨_, hname⟩,
    Table.unknownKeyProblems_eq_nil_iff.mpr hkeys⟩,
    Reading.requiredProblems_eq_nil_iff.mpr ⟨_, hrange⟩⟩,
    Reading.problems_eq_nil_iff.mpr ⟨_, hdescription⟩⟩,
    Reading.requiredProblems_eq_nil_iff.mpr ⟨_, hvalues⟩⟩, ?_⟩
  rwa [hname]

namespace BitField

/-- Keys that fit together are not reported. -/
lemma checkFit_clean {range : BitRange} {isReserved : Bool} {name description : Option String}
    {f : BitField} (h : (checkFit path t range isReserved name description).outcome = some f) :
    (checkFit path t range isReserved name description).report.diagnostics = [] := by
  unfold checkFit at h ⊢
  cases isReserved with
  | true =>
    simp only [if_true] at h ⊢
    split_ifs at h with hproblems
    rw [Report.diagnostics_ofDiagnostics]
    exact List.isEmpty_iff.mp hproblems
  | false =>
    cases name with
    | none => cases h
    | some name => rfl

lemma check_accepts {f : BitField} (isReserved : Option Bool)
    (hu : Usable t f.range isReserved f.name f.description)
    (hfit : if isReserved = some true then f.name = none ∧ f.description = none
      else f.name ≠ none)
    (hkeys : t.keys ⊆ keys) : (check path t).Accepts f := by
  have houtcome : (check path t).outcome = some f :=
    check_outcome_eq_some_iff.mpr ⟨isReserved, hu, hfit⟩
  refine ⟨houtcome, ?_⟩
  simp only [check, hu.range_eq, hu.isReserved_eq, hu.name_eq, hu.description_eq, Reading.value?,
    Option.map_some] at houtcome ⊢
  rw [Report.diagnostics_append, Report.diagnostics_ofDiagnostics, checkFit_clean houtcome,
    Table.unknownKeyProblems_eq_nil_iff.mpr hkeys,
    Reading.problems_eq_nil_iff.mpr ⟨_, hu.isReserved_eq⟩,
    Reading.problems_eq_nil_iff.mpr ⟨_, hu.name_eq⟩,
    Reading.problems_eq_nil_iff.mpr ⟨_, hu.description_eq⟩]
  rfl

end BitField

/-! ### Descriptions -/

/-- A description, unless it is empty. -/
def nonemptyText (description : Option String) : Option String :=
  description.filter fun text => !text.isEmpty

lemma mem_of_mem_nonemptyText {description : Option String} {text : String}
    (h : text ∈ nonemptyText description) : text ∈ description :=
  (Option.mem_filter_iff.mp h).1

lemma Fragment.descriptionEntry_eq (description : Option String) :
    descriptionEntry description =
      (nonemptyText description).toList.map fun text => ("description", .text text) := by
  cases description with
  | none => rfl
  | some text =>
    rw [descriptionEntry, nonemptyText]
    by_cases h : text.isEmpty = true
    · rw [if_pos h, Option.filter_some_neg (by simp [h])]
      rfl
    · rw [if_neg h, Option.filter_some_pos (by simp [h])]
      rfl

/-- An enum value without an empty description. -/
def EnumValue.withoutEmptyText (v : EnumValue) : EnumValue :=
  { v with description := nonemptyText v.description }

/-- An enumeration without empty descriptions. -/
def RegisterEnum.withoutEmptyTexts (e : RegisterEnum) : RegisterEnum :=
  { e with
    values := e.values.map EnumValue.withoutEmptyText
    description := nonemptyText e.description }

/-- A bit field without an empty description. -/
def BitField.withoutEmptyText (f : BitField) : BitField :=
  { f with description := nonemptyText f.description }

/-! ### Fragments that are accepted -/

/-- Whether the name, the range and the values of an enumeration can be read from a table. -/
structure RegisterEnum.IsReadable (e : RegisterEnum) : Prop where
  isIdentifier_name : Name.isIdentifier e.name = true
  msb_le : e.range.msb ≤ BitRange.maxBitNumber
  isIdentifier_valueName : ∀ v ∈ e.values, Name.isIdentifier v.name = true
  value_nonneg : ∀ v ∈ e.values, 0 ≤ v.value
  value_le : ∀ v ∈ e.values, v.value ≤ Table.maxUnsigned

/-- Whether the name and the range of a bit field can be read from a table, in which a reserved bit
field has no description. -/
structure BitField.IsReadable (f : BitField) : Prop where
  msb_le : f.range.msb ≤ BitRange.maxBitNumber
  isIdentifier_name : ∀ name, f.name = some name → Name.isIdentifier name = true
  description_eq_none : f.name = none → f.description = none

namespace Fragment

lemma ofEnumValue_eq (v : EnumValue) :
    ofEnumValue v = [("value", .decimal v.value), ("name", .text v.name)] ++
      (nonemptyText v.description).toList.map fun text => ("description", .text text) := by
  rw [ofEnumValue, descriptionEntry_eq]

lemma check_ofEnumValue {v : EnumValue} (hname : Name.isIdentifier v.name = true)
    (hnonneg : 0 ≤ v.value) (hbound : v.value ≤ Table.maxUnsigned) :
    (EnumValue.check path (ofEnumValue v).table).Accepts v.withoutEmptyText := by
  rw [ofEnumValue_eq]
  apply EnumValue.check_accepts
  case hname => exact Table.name_eq_valid_iff.mpr ⟨rfl, hname⟩
  case hvalue => exact Table.unsigned_eq_valid_iff.mpr ⟨rfl, hnonneg, hbound⟩
  case hdescription =>
    rw [EnumValue.withoutEmptyText]
    cases nonemptyText v.description <;> rfl
  case hkeys =>
    cases nonemptyText v.description <;> simp [Entries.table, Table.keys, EnumValue.keys]

lemma bitRange_text {range : BitRange} (h : range.msb ≤ BitRange.maxBitNumber) :
    Conversion.bitRange range.text = .ok range := by
  rw [Conversion.bitRange, BitRange.read_text h]
  rfl

lemma ofEnum_entries_eq (e : RegisterEnum) :
    (ofEnum e).entries = [("name", .text e.name)] ++
      ((nonemptyText e.description).toList.map fun text => ("description", .text text)) ++
      [("bit", .text e.range.text)] := by
  rw [ofEnum, descriptionEntry_eq]

lemma check_ofEnum {e : RegisterEnum} (h : e.IsReadable) :
    (RegisterEnum.check path (ofEnum e).table).Accepts
      { e.withoutEmptyTexts with isComplete := false } := by
  have hvalues : List.Forall₂
      (fun t v => (EnumValue.check (RegisterEnum.inside path e.name) t).Accepts v)
      (e.values.map fun v => (ofEnumValue v).table) (e.values.map EnumValue.withoutEmptyText) := by
    rw [List.forall₂_map_left_iff, List.forall₂_map_right_iff, List.forall₂_same]
    intro v hv
    exact check_ofEnumValue (h.isIdentifier_valueName v hv) (h.value_nonneg v hv) (h.value_le v hv)
  have harray : ((ofEnum e).values.map fun v => Value.table v.table) =
      (e.values.map fun v => (ofEnumValue v).table).map .table := by
    simp [ofEnum]
  rw [EnumFragment.table, ofEnum_entries_eq, harray]
  refine RegisterEnum.check_accepts ?hname ?hrange ?hdescription ?hvalues hvalues rfl ?hkeys
  case hname =>
    refine Table.name_eq_valid_iff.mpr ⟨?_, h.isIdentifier_name⟩
    cases nonemptyText e.description <;> rfl
  case hrange =>
    refine Table.convertedText_eq_valid_iff.mpr ⟨e.range.text, ?_, bitRange_text h.msb_le⟩
    cases nonemptyText e.description <;> rfl
  case hdescription =>
    rw [RegisterEnum.withoutEmptyTexts]
    cases nonemptyText e.description <;> rfl
  case hvalues =>
    refine Table.tables_eq_valid_iff.mpr ?_
    cases nonemptyText e.description <;> rfl
  case hkeys =>
    cases nonemptyText e.description <;> simp [Entries.table, Table.keys, RegisterEnum.keys]

lemma ofBitField_some (range : BitRange) (name : String) (description : Option String) :
    ofBitField ⟨range, some name, description⟩ =
      [("bit", .text range.text), ("name", .text name)] ++
        (nonemptyText description).toList.map fun text => ("description", .text text) := by
  rw [← descriptionEntry_eq]
  rfl

lemma check_ofBitField {f : BitField} (h : f.IsReadable) :
    (BitField.check path (ofBitField f).table).Accepts f.withoutEmptyText := by
  obtain ⟨range, name, description⟩ := f
  have hrange := bitRange_text h.msb_le
  cases name with
  | none =>
    obtain rfl : description = none := h.description_eq_none rfl
    refine BitField.check_accepts (some true) ⟨?_, rfl, rfl, rfl⟩ ⟨rfl, rfl⟩ ?_
    · exact Table.convertedText_eq_valid_iff.mpr ⟨range.text, rfl, hrange⟩
    · simp [ofBitField, Entries.table, Table.keys, BitField.keys]
  | some name =>
    have hname := h.isIdentifier_name name rfl
    rw [ofBitField_some]
    refine BitField.check_accepts none ⟨?_, ?_, ?_, ?_⟩
      (by simp [BitField.withoutEmptyText]) ?_
    · exact Table.convertedText_eq_valid_iff.mpr ⟨range.text, rfl, hrange⟩
    · cases nonemptyText description <;> rfl
    · exact Reading.optional?_eq_some_iff.mpr
        (.inr ⟨name, Table.name_eq_valid_iff.mpr ⟨rfl, hname⟩, rfl⟩)
    · rw [BitField.withoutEmptyText]
      cases nonemptyText description <;> rfl
    · cases nonemptyText description <;> simp [Entries.table, Table.keys, BitField.keys]

end Fragment

end RegisterMap
