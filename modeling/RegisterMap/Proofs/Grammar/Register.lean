import RegisterMap.Proofs.Grammar.Part
import RegisterMap.Proofs.Placement
import RegisterMap.Proofs.Procedure.Matching
import RegisterMap.Proofs.Procedure.Register

/-!
# The grammar of registers

A table is written as a register under a description if it has a name, one location, a size and an
access mode, be it by default, and arrays of tables for its parts. What these tables are does not
matter: the register has the parts that are accepted, and tells of its enumerations whether they are
complete. The procedure for register tables decides this grammar.
-/

namespace RegisterMap

namespace Register

open Procedure

variable {d : Description} {path : Path} {t : Table} {kind : LocationKind} {fields : List Table}
  {enums : Option (List Table)} {r described : Register}

/-! ### Tables that are written as registers -/

/-- A table is written as a register under a description. -/
structure WrittenAs (d : Description) (t : Table) (r : Register) : Prop where
  name_eq : t.get? "name" = some (.text r.name)
  isIdentifier_name : Name.isIdentifier r.name = true
  description_eq : t.get? "description" = r.description.map .text
  locates : Placement.Locates d t ⟨r.readLocation, r.writeLocation⟩ r.slot
  size_eq : (t.get? "size" = none ∧ d.defaultSize = some r.size) ∨
    ∃ v, t.get? "size" = some v ∧ Conversion.size v = .ok r.size
  access_eq : (t.get? "access" = none ∧ d.defaultAccess = some r.access) ∨
    ∃ text, t.get? "access" = some (.text text) ∧ AccessMode.ofText? text = some r.access
  bitFields_accepted : ∃ ts : List Table, t.get? "bit_fields" = some (.array (ts.map .table)) ∧
    r.bitFields = ts.filterMap (acceptedAs? checkBitField)
  enums_accepted : ∃ ts : Option (List Table),
    t.get? "enum" = ts.map (fun ts => .array (ts.map .table)) ∧
      r.enums = RegisterEnum.completedAll r.bitFields
        ((ts.getD []).filterMap (acceptedAs? checkEnum))

/-- The keys of a located table are usable if their values are of the right types and content. -/
lemma usable_iff : Usable d path t kind fields enums r ↔
    t.get? "description" = r.description.map .text ∧
      (Placement.slot d t).optional? = some r.slot ∧
      Placement.ofKey d t kind = .valid ⟨r.readLocation, r.writeLocation⟩ ∧
      ((t.get? "size" = none ∧ d.defaultSize = some r.size) ∨
        ∃ v, t.get? "size" = some v ∧ Conversion.size v = .ok r.size) ∧
      ((t.get? "access" = none ∧ d.defaultAccess = some r.access) ∨
        ∃ text, t.get? "access" = some (.text text) ∧ AccessMode.ofText? text = some r.access) ∧
      (t.get? "bit_fields" = some (.array (fields.map .table)) ∧
        r.bitFields = fields.filterMap (acceptedAs? checkBitField)) ∧
      t.get? "enum" = enums.map (fun ts => .array (ts.map .table)) ∧
        r.enums = (enums.getD []).filterMap (acceptedAs? checkEnum) := by
  simp only [← checkBitField_follows.accepted_eq BitField.check_outcome_eq_some_iff_writtenAs path,
    ← checkEnum_follows.accepted_eq RegisterEnum.check_outcome_eq_some_iff_writtenAs path,
    ← Conversion.access_eq_ok_iff, ← Table.converted_eq_valid_iff,
    ← Table.convertedText_eq_valid_iff, ← @Table.converted_eq_absent_iff _ t "size" Conversion.size,
    ← @Table.convertedText_eq_absent_iff _ t "access" Conversion.access,
    ← Reading.orDefault?_eq_some_iff, ← Table.text_optional?_eq_some_iff,
    ← Table.tables_eq_valid_iff, ← Table.tables_optional?_eq_some_iff]
  constructor
  · intro h
    exact ⟨h.description_eq, h.slot_eq, h.placement_eq, h.size_eq, h.access_eq,
      ⟨h.fieldTables_eq, h.bitFields_eq⟩, h.enumTables_eq, h.enums_eq⟩
  · rintro ⟨hdescription, hslot, hplacement, hsize, haccess, ⟨hfields, hbitFields⟩, htables, henums⟩
    exact ⟨hdescription, hslot, hplacement, hsize, haccess, hfields, hbitFields, htables, henums⟩

/-! ### Accepted tables -/

lemma settle_outcome (path : Path) (refused : Option (List BitRange)) (r : Register) :
    (r.settle path refused).outcome =
      { r with enums := RegisterEnum.completedAll r.bitFields r.enums } := by
  rw [← RegisterEnum.settleAll_outcome_eq_completedAll]
  rfl

/-- A table with a name, one location and usable keys is accepted. Only unknown keys are reported
then, what is wrong with the tables of its parts, and how the parts fit together. -/
lemma check_of_usable (hname : t.name "name" = .valid described.name)
    (hkinds : Placement.locatingKinds d t = [kind])
    (h : Usable d (inside path described.name) t kind fields enums described) :
    (check d path t).outcome =
        some { described with
          enums := RegisterEnum.completedAll described.bitFields described.enums } ∧
      (check d path t).report.diagnostics =
        t.unknownKeyProblems .register (inside path described.name) keys ++
        (CheckedList.ofTables (BitField.check (inside path described.name))
          fields).report.diagnostics ++
        (CheckedList.ofTables (RegisterEnum.check (inside path described.name))
          (enums.getD [])).report.diagnostics ++
        (described.settle (inside path described.name) (BitField.refusedRanges?
          (CheckedList.ofTables (BitField.check (inside path described.name))
            fields).refused)).report.diagnostics := by
  obtain ⟨report, hcheck, hreport⟩ := checkLocated_of_usable h
  have hnamed : checkNamed d (inside path described.name) t described.name =
      checkLocated d (inside path described.name) t described.name kind := by
    rw [checkNamed, hkinds]
  simp only [check, hname, Reading.value?, Option.map_some]
  rw [show path.enter (some s!"register '{described.name}'") = inside path described.name from rfl,
    hnamed, hcheck]
  exact ⟨by rw [settle_outcome], by simp [hreport, Reading.requiredProblems]⟩

/-- An accepted table has a name, one location and usable keys. -/
lemma exists_usable_of_check (h : (check d path t).outcome = some r) :
    ∃ kind fields enums described, t.name "name" = .valid described.name ∧
      Placement.locatingKinds d t = [kind] ∧
      Usable d (inside path described.name) t kind fields enums described := by
  obtain ⟨name, kind, report, hname, hkinds, hcheck⟩ := exists_located_of_check h
  rw [hcheck] at h
  obtain ⟨described, fields, enums, husable, rfl⟩ := exists_usable_of_checkLocated h
  exact ⟨kind, fields, enums, described, hname, hkinds, husable⟩

lemma check_outcome_eq_some_iff_writtenAs (path : Path) (t : Table) (r : Register) :
    (check d path t).outcome = some r ↔ WrittenAs d t r := by
  constructor
  · intro h
    obtain ⟨kind, fields, enums, described, hname, hkinds, husable⟩ := exists_usable_of_check h
    rw [(check_of_usable hname hkinds husable).1, Option.some.injEq] at h
    obtain ⟨hdescription, hslot, hplacement, hsize, haccess, ⟨hfields, hbitFields⟩, htables,
      henums⟩ := usable_iff.mp husable
    obtain ⟨hname, hidentifier⟩ := Table.name_eq_valid_iff.mp hname
    rw [← h]
    exact ⟨hname, hidentifier, hdescription,
      Placement.locates_iff.mpr ⟨kind, hkinds, hplacement, hslot⟩, hsize, haccess,
      ⟨fields, hfields, hbitFields⟩, ⟨enums, htables, by rw [henums]⟩⟩
  · intro h
    obtain ⟨kind, hkinds, hplacement, hslot⟩ := Placement.locates_iff.mp h.locates
    obtain ⟨fields, hfields, hbitFields⟩ := h.bitFields_accepted
    obtain ⟨enums, htables, henums⟩ := h.enums_accepted
    -- The register before it is told which of its enumerations are complete.
    obtain ⟨described, hdescribed⟩ : ∃ described : Register, described =
        { r with enums := (enums.getD []).filterMap (acceptedAs? checkEnum) } := ⟨_, rfl⟩
    have hname : t.name "name" = .valid described.name := by
      rw [hdescribed]
      exact Table.name_eq_valid_iff.mpr ⟨h.name_eq, h.isIdentifier_name⟩
    have husable : Usable d (inside path described.name) t kind fields enums described := by
      rw [hdescribed]
      exact usable_iff.mpr ⟨h.description_eq, hslot, hplacement, h.size_eq, h.access_eq,
        ⟨hfields, hbitFields⟩, htables, rfl⟩
    rw [(check_of_usable hname hkinds husable).1, hdescribed, ← henums]

lemma checkRegister_decides (d : Description) :
    Decides (checkRegister d) .register (WrittenAs d) :=
  (checkRegister_follows d).decides check_outcome_eq_some_iff_writtenAs fun _ _ => check_givesReason

end Register

end RegisterMap
