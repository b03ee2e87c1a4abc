import RegisterMap.Check.Register
import RegisterMap.Proofs.Coverage
import RegisterMap.Proofs.Enumeration
import RegisterMap.Proofs.Part

/-!
# Registers without diagnostics

A register table is not refused without a diagnostic. From a table that was checked without any, a
register is made whose bit fields and enumerations are those of the table, one by one, and fit
together.
-/

namespace RegisterMap

variable {d : Description} {path : Path} {t : Table}

/-! ### Locations -/

namespace Placement

lemma mem_kinds_iff {kind : LocationKind} : kind ∈ kinds t ↔ t.has kind.key = true := by
  cases kind <;> simp [kinds]

lemma has_of_mem_locatingKinds {kind : LocationKind} (h : kind ∈ locatingKinds d t) :
    t.has kind.key = true := by
  unfold locatingKinds at h
  split_ifs at h
  · exact mem_kinds_iff.mp (List.mem_filter.mp h).1
  · exact mem_kinds_iff.mp h

lemma ofTemplate_ne_absent {kind : LocationKind} {text : String} :
    ofTemplate d kind text ≠ .absent := by
  unfold ofTemplate
  split_ifs
  · cases Conversion.addresses text with
    | error e => simp
    | ok addresses =>
      dsimp only
      cases addressFault? d [addresses.1, addresses.2] <;> simp
  · simp

lemma ofKey_eq_absent_iff {kind : LocationKind} :
    ofKey d t kind = .absent ↔ t.get? kind.key = none := by
  have hunsigned (maximum : Int) (kind : LocationKind) :
      ((t.unsigned kind.key maximum).bind fun n => .valid (same kind n)) = .absent ↔
        t.get? kind.key = none := by
    rw [Reading.bind_eq_absent_iff (fun _ => by simp), Table.unsigned_eq_absent_iff]
  have haddress (kind : LocationKind) : ofAddress d t kind = .absent ↔
      t.get? kind.key = none := by
    unfold ofAddress
    split
    next text h => simp [ofTemplate_ne_absent, h]
    next => exact hunsigned _ kind
  cases kind with
  | index => exact hunsigned _ .index
  | relative => exact haddress .relative
  | absolute => exact haddress .absolute

end Placement

namespace Register

/-- The path inside a register with a name. -/
def inside (path : Path) (name : String) : Path := path.enter (some s!"register '{name}'")

lemma propertyProblems_eq_nil_iff {α : Type} {key what : String} {default : Option α}
    {r : Reading α} :
    propertyProblems path key what default r = [] ↔ ∃ a, r.orDefault? default = some a := by
  cases r <;> cases default <;>
    simp [propertyProblems, Reading.orDefault?, Reading.problems]

/-! ### Located registers -/

/-- The keys of a register table, all of them usable, with the register that they describe before
its parts are fitted together. -/
structure Usable (d : Description) (path : Path) (t : Table) (kind : LocationKind)
    (fields : List Table) (enums : Option (List Table)) (r : Register) : Prop where
  description_eq : (t.text "description").optional? = some r.description
  slot_eq : (Placement.slot d t).optional? = some r.slot
  placement_eq : Placement.ofKey d t kind = .valid ⟨r.readLocation, r.writeLocation⟩
  size_eq : (t.converted "size" Conversion.size).orDefault? d.defaultSize = some r.size
  access_eq :
    (t.convertedText "access" Conversion.access).orDefault? d.defaultAccess = some r.access
  fieldTables_eq : t.tables "bit_fields" = .valid fields
  bitFields_eq : r.bitFields = (CheckedList.ofTables (BitField.check path) fields).accepted
  enumTables_eq : (t.tables "enum").optional? = some enums
  enums_eq : r.enums = (CheckedList.ofTables (RegisterEnum.check path) (enums.getD [])).accepted

/-- The tables of a reading that may be absent are those that were read. -/
lemma value?_getD_eq {r : Reading (List Table)} {ts : Option (List Table)}
    (h : r.optional? = some ts) : r.value?.getD [] = ts.getD [] := by
  cases r <;> simp_all [Reading.optional?, Reading.value?]

lemma reasons_propertyProblems {α : Type} {key what : String} {default : Option α} {r : Reading α} :
    Diagnostic.reasons .register (propertyProblems path key what default r) =
      propertyProblems path key what default r := by
  cases r with
  | absent => cases default <;> rfl
  | invalid fault => rfl
  | valid a => rfl

/-- A located table with an unusable key is refused for this reason. -/
lemma checkLocated_givesReason {name : String} {kind : LocationKind}
    (hkind : t.has kind.key = true) :
    (checkLocated d path t name kind).GivesReason .register := by
  intro hnone hclean
  simp only [checkLocated] at hnone hclean
  split at hnone
  next hnone' =>
    rw [hnone'] at hclean
    simp only [Report.diagnostics_append, Report.diagnostics_ofDiagnostics,
      Diagnostic.reasons_append, Reading.reasons_problems, Reading.reasons_requiredProblems,
      reasons_propertyProblems, List.append_eq_nil_iff, Reading.requiredProblems_eq_nil_iff,
      Reading.problems_eq_nil_iff, propertyProblems_eq_nil_iff] at hclean
    obtain ⟨⟨⟨⟨⟨⟨⟨⟨⟨description, hdescription⟩, slot, hslot⟩, placement, hplacement⟩, size,
      hsize⟩, access, haccess⟩, fields, hfields⟩, _⟩, enums, henums⟩, _⟩ := hclean
    have hpresent : Placement.ofKey d t kind ≠ .absent := by
      rw [Ne, Placement.ofKey_eq_absent_iff, ← Table.has_eq_false_iff, hkind]
      simp
    obtain ⟨habsent, _⟩ | ⟨place, hplace, _⟩ := Reading.optional?_eq_some_iff.mp hplacement
    · exact hpresent habsent
    · simp [hdescription, hslot, hplace, hsize, haccess, hfields, henums, Reading.value?] at hnone'
  next => cases hnone

/-- The keys of a located table that was accepted are usable. -/
lemma exists_usable_of_checkLocated {name : String} {kind : LocationKind} {r : Register}
    (h : (checkLocated d path t name kind).outcome = some r) :
    ∃ described fields enums, Usable d path t kind fields enums described ∧
      described.name = name := by
  simp only [checkLocated] at h
  split at h
  next => cases h
  next described hdescribed =>
    simp only [Option.bind_eq_bind, Option.bind_eq_some_iff, Reading.value?_eq_some_iff,
      Option.pure_def, Option.some.injEq] at hdescribed
    obtain ⟨description, hdescription, slot, hslot, placement, hplacement, size, hsize, access,
      haccess, fields, hfields, enums, henums, rfl⟩ := hdescribed
    have hfieldTables : (t.tables "bit_fields").value?.getD [] = fields := by
      simp [hfields, Reading.value?]
    simp only [CheckedList.ofReading, hfieldTables, value?_getD_eq henums] at h
    exact ⟨⟨name, access, size, placement.read, placement.write, _, _, description, slot⟩, fields,
      enums, ⟨hdescription, hslot, hplacement, hsize, haccess, hfields, rfl, henums, rfl⟩, rfl⟩

/-- A located table with usable keys is accepted. Only its parts are reported on, and how they fit
together. -/
lemma checkLocated_of_usable {kind : LocationKind} {fields : List Table}
    {enums : Option (List Table)} {described : Register}
    (h : Usable d path t kind fields enums described) :
    ∃ report, checkLocated d path t described.name kind =
        ⟨some (described.settle path (BitField.refusedRanges?
          (CheckedList.ofTables (BitField.check path) fields).refused)).outcome, report⟩ ∧
      report.diagnostics =
        (CheckedList.ofTables (BitField.check path) fields).report.diagnostics ++
        (CheckedList.ofTables (RegisterEnum.check path) (enums.getD [])).report.diagnostics ++
        (described.settle path (BitField.refusedRanges?
          (CheckedList.ofTables (BitField.check path) fields).refused)).report.diagnostics := by
  have hfieldsReading : CheckedList.ofReading (BitField.check path) (t.tables "bit_fields") =
      CheckedList.ofTables (BitField.check path) fields := by
    rw [CheckedList.ofReading, h.fieldTables_eq]
    rfl
  have henumsReading : CheckedList.ofReading (RegisterEnum.check path) (t.tables "enum") =
      CheckedList.ofTables (RegisterEnum.check path) (enums.getD []) := by
    rw [CheckedList.ofReading, value?_getD_eq h.enumTables_eq]
  have hregister : (do
      let description ← (t.text "description").optional?
      let slot ← (Placement.slot d t).optional?
      let placement ← (Placement.ofKey d t kind).value?
      let size ← (t.converted "size" Conversion.size).orDefault? d.defaultSize
      let access ← (t.convertedText "access" Conversion.access).orDefault? d.defaultAccess
      let _ ← (t.tables "bit_fields").value?
      let _ ← (t.tables "enum").optional?
      return (⟨described.name, access, size, placement.read, placement.write,
        (CheckedList.ofTables (BitField.check path) fields).accepted,
        (CheckedList.ofTables (RegisterEnum.check path) (enums.getD [])).accepted, description,
        slot⟩ : Register)) = some described := by
    rw [h.description_eq, h.slot_eq, h.placement_eq, h.size_eq, h.access_eq, h.fieldTables_eq,
      h.enumTables_eq, ← h.bitFields_eq, ← h.enums_eq]
    rfl
  have hkeys : (t.text "description").problems .register path "description" ++
      (Placement.slot d t).problems .register path LocationKind.index.key ++
      (Placement.ofKey d t kind).problems .register path kind.key ++
      propertyProblems path "size" "size" d.defaultSize (t.converted "size" Conversion.size) ++
      propertyProblems path "access" "access mode" d.defaultAccess
        (t.convertedText "access" Conversion.access) ++
      (t.tables "bit_fields").requiredProblems .register path "bit_fields" = [] := by
    simp only [List.append_eq_nil_iff, Reading.problems_eq_nil_iff, propertyProblems_eq_nil_iff,
      Reading.requiredProblems_eq_nil_iff]
    have hplacement : (Placement.ofKey d t kind).optional? =
        some (some ⟨described.readLocation, described.writeLocation⟩) := by
      rw [h.placement_eq]
      rfl
    exact ⟨⟨⟨⟨⟨⟨_, h.description_eq⟩, _, h.slot_eq⟩, _, hplacement⟩, _, h.size_eq⟩, _,
      h.access_eq⟩, _, h.fieldTables_eq⟩
  have henumKey : (t.tables "enum").problems .register path "enum" = [] :=
    Reading.problems_eq_nil_iff.mpr ⟨_, h.enumTables_eq⟩
  unfold checkLocated
  simp only [hfieldsReading, henumsReading, hregister, hkeys, henumKey]
  exact ⟨_, rfl, by simp⟩

/-- What was checked of a located table that was accepted without diagnostics. -/
lemma exists_usable_of_accepts {name : String} {kind : LocationKind} {r : Register}
    (h : (checkLocated d path t name kind).Accepts r) :
    ∃ described fields enums settled,
      Usable d path t kind fields enums described ∧ described.name = name ∧
      (CheckedList.ofTables (BitField.check path) fields).report.diagnostics = [] ∧
      (CheckedList.ofTables (RegisterEnum.check path) (enums.getD [])).report.diagnostics = [] ∧
      settled = described.settle path (BitField.refusedRanges?
        (CheckedList.ofTables (BitField.check path) fields).refused) ∧
      settled.report.diagnostics = [] ∧ r = settled.outcome := by
  obtain ⟨hsome, hclean⟩ := h
  obtain ⟨described, fields, enums, husable, rfl⟩ := exists_usable_of_checkLocated hsome
  obtain ⟨report, hcheck, hreport⟩ := checkLocated_of_usable husable
  rw [hcheck] at hsome hclean
  rw [hreport, List.append_eq_nil_iff, List.append_eq_nil_iff] at hclean
  obtain ⟨⟨hfields, henums⟩, hsettled⟩ := hclean
  exact ⟨described, fields, enums, _, husable, rfl, hfields, henums, rfl, hsettled,
    (Option.some.inj hsome).symm⟩

/-! ### Registers -/

lemma checkNamed_givesReason {name : String} :
    (checkNamed d path t name).GivesReason .register := by
  unfold checkNamed
  split
  next kind hkind =>
    have hmem : kind ∈ Placement.locatingKinds d t := by rw [hkind]; exact List.mem_singleton_self _
    exact checkLocated_givesReason (Placement.has_of_mem_locatingKinds hmem)
  next =>
    intro _ hclean
    simp [Diagnostic.reasons, Diagnostic.isReason, Diagnostic.constraint] at hclean

lemma check_of_name (d : Description) (path : Path) {name : String}
    (h : t.name "name" = .valid name) :
    ∃ report, check d path t = ⟨(checkNamed d (inside path name) t name).outcome,
      report ++ (checkNamed d (inside path name) t name).report⟩ := by
  simp only [check, h, Reading.value?]
  exact ⟨_, rfl⟩

lemma check_of_not_name (h : ¬ ∃ name, t.name "name" = .valid name) :
    (check d path t).outcome = none ∧
      Diagnostic.reasons .register (check d path t).report.diagnostics ≠ [] := by
  simp only [check]
  split
  next =>
    refine ⟨rfl, fun hclean => h ?_⟩
    simp only [Report.diagnostics_ofDiagnostics, Diagnostic.reasons_append,
      Reading.reasons_requiredProblems, List.append_eq_nil_iff,
      Reading.requiredProblems_eq_nil_iff] at hclean
    exact hclean.1
  next name hname => exact absurd ⟨name, Reading.value?_eq_some_iff.mp hname⟩ h

/-- A table is not refused without a reason. -/
lemma check_givesReason : (check d path t).GivesReason .register := by
  intro hnone hclean
  by_cases hname : ∃ name, t.name "name" = .valid name
  · obtain ⟨name, hname⟩ := hname
    obtain ⟨report, hcheck⟩ := check_of_name d path hname
    rw [hcheck] at hnone hclean
    rw [Report.diagnostics_append, Diagnostic.reasons_append, List.append_eq_nil_iff] at hclean
    exact checkNamed_givesReason hnone hclean.2
  · exact (check_of_not_name hname).2 hclean

lemma check_explains : (check d path t).Explains := check_givesReason.explains

/-- How a register was made from a table without diagnostics: from `described`, which has the
parts that the table lists, by fitting these parts together. -/
structure MadeFrom (path : Path) (t : Table) (described r : Register) : Prop where
  name_eq : t.name "name" = .valid r.name
  bitFields_accepted : ∃ ts, t.tables "bit_fields" = .valid ts ∧
    (CheckedList.ofTables (BitField.check (inside path r.name)) ts).refused = [] ∧
    List.Forall₂ (fun t f => (BitField.check (inside path r.name) t).Accepts f) ts r.bitFields
  enums_madeFrom : ∃ ts, (t.tables "enum").optional? = some ts ∧
    List.Forall₂ (RegisterEnum.MadeFrom (inside path r.name)) (ts.getD []) described.enums
  coverage_clean : Coverage.problems r.size.bits (r.bitFields.map (·.range)) (some []) = []
  fieldNames_clean : r.fieldNameProblems (inside path r.name) = []
  enums_clean : (RegisterEnum.settleAll (inside path r.name) r.bitFields (some [])
    described.enums).report.diagnostics = []
  enums_eq : r.enums =
    (RegisterEnum.settleAll (inside path r.name) r.bitFields (some []) described.enums).outcome

/-- A table that was accepted has a name and one locating key, and was checked as located by it. -/
lemma exists_located_of_check {r : Register} (h : (check d path t).outcome = some r) :
    ∃ name kind report, t.name "name" = .valid name ∧ Placement.locatingKinds d t = [kind] ∧
      check d path t = ⟨(checkLocated d (inside path name) t name kind).outcome,
        report ++ (checkLocated d (inside path name) t name kind).report⟩ := by
  by_cases hname : ∃ name, t.name "name" = .valid name
  · obtain ⟨name, hname⟩ := hname
    obtain ⟨report, hcheck⟩ := check_of_name d path hname
    unfold checkNamed at hcheck
    split at hcheck
    next kind hkind => exact ⟨name, kind, report, hname, hkind, hcheck⟩
    next =>
      rw [hcheck] at h
      cases h
  · simp [(check_of_not_name hname).1] at h

lemma exists_located_of_accepts {r : Register} (h : (check d path t).Accepts r) :
    ∃ name kind, t.name "name" = .valid name ∧ Placement.locatingKinds d t = [kind] ∧
      (checkLocated d (inside path name) t name kind).Accepts r := by
  obtain ⟨hsome, hclean⟩ := h
  obtain ⟨name, kind, report, hname, hkind, hcheck⟩ := exists_located_of_check hsome
  rw [hcheck] at hsome hclean
  rw [Report.diagnostics_append, List.append_eq_nil_iff] at hclean
  exact ⟨name, kind, hname, hkind, hsome, hclean.2⟩

/-- A table that was accepted without diagnostics has given its register. -/
lemma exists_madeFrom_of_accepts {r : Register} (h : (check d path t).Accepts r) :
    ∃ described, MadeFrom path t described r := by
  obtain ⟨name, kind, hname, _, haccepts⟩ := exists_located_of_accepts h
  obtain ⟨described, fields, enums, settled, husable, rfl, hfields, henums, rfl, hsettled, rfl⟩ :=
    exists_usable_of_accepts haccepts
  have hrefused := CheckedList.refused_eq_nil (fun _ _ => BitField.check_explains) hfields
  rw [hrefused] at hsettled ⊢
  simp only [settle, Report.diagnostics_append, Report.diagnostics_ofDiagnostics,
    List.append_eq_nil_iff, Coverage.diagnostics_eq_nil_iff] at hsettled
  refine ⟨described, hname, ⟨fields, husable.fieldTables_eq, hrefused, ?_⟩,
    ⟨enums, husable.enumTables_eq, ?_⟩, hsettled.1.1, hsettled.1.2, hsettled.2, rfl⟩
  · rw [show (settle _ _ described).outcome.bitFields = _ from husable.bitFields_eq]
    exact CheckedList.forall₂_accepts (fun _ _ => BitField.check_explains) hfields
  · rw [husable.enums_eq]
    exact (CheckedList.forall₂_accepts (fun _ _ => RegisterEnum.check_explains) henums).imp
      fun _ _ => RegisterEnum.madeFrom_of_accepts

/-! ### Bit fields and enumerations -/

/-- The enumerations of a register describe different bit fields that are not reserved, by values
that fit these and do not repeat, and tell whether they name every value. -/
structure EnumsFit (r : Register) : Prop where
  ranges_distinct : r.enums.Pairwise fun e o => e.range ≠ o.range
  existsUnique_field : ∀ e ∈ r.enums,
    ∃! i : Fin r.bitFields.length, r.bitFields[i].range = e.range
  not_reserved : ∀ e ∈ r.enums, ∀ f ∈ r.bitFields, f.range = e.range → f.isReserved = false
  value_bounds : ∀ e ∈ r.enums, ∀ v ∈ e.values, 0 ≤ v.value ∧ v.value ≤ 2 ^ e.range.width - 1
  values_nodup : ∀ e ∈ r.enums, (e.values.map (·.value)).Nodup
  isComplete_iff : ∀ e ∈ r.enums, (e.isComplete = true ↔
    ∀ n, n ∈ e.values.map (·.value) ↔ 0 ≤ n ∧ n ≤ 2 ^ e.range.width - 1)
  exists_maxValue : ∀ e ∈ r.enums, ∃ maxValue, e.range.maxValue = .ok maxValue

namespace MadeFrom

variable {described r : Register}

lemma msb_lt_size (h : MadeFrom path t described r) {f : BitField} (hf : f ∈ r.bitFields) :
    f.range.msb < r.size.bits :=
  (Coverage.problems_eq_nil_iff.mp h.coverage_clean).1 f.range (List.mem_map_of_mem hf)

lemma existsUnique_contains (h : MadeFrom path t described r) {bit : Nat}
    (hbit : bit < r.size.bits) :
    ∃! i : Fin r.bitFields.length, r.bitFields[i].range.contains bit = true := by
  obtain ⟨_, hapart, hcovered⟩ := Coverage.problems_eq_nil_iff.mp h.coverage_clean
  refine RegisterMap.existsUnique_contains hapart ?_
  simpa using hcovered [] rfl bit hbit

/-- No bit field has the range of another. -/
lemma existsUnique_field (h : MadeFrom path t described r) {range : BitRange}
    (hfield : ∃ f ∈ r.bitFields, f.range = range) :
    ∃! i : Fin r.bitFields.length, r.bitFields[i].range = range := by
  obtain ⟨f, hf, rfl⟩ := hfield
  obtain ⟨i, hi, rfl⟩ := List.mem_iff_getElem.mp hf
  have hbit : r.bitFields[i].range.lsb < r.size.bits :=
    Nat.lt_of_le_of_lt r.bitFields[i].range.lsb_le_msb (h.msb_lt_size hf)
  have hunique := h.existsUnique_contains hbit
  refine ⟨⟨i, hi⟩, rfl, fun j hj => hunique.unique ?_ (BitRange.contains_lsb _)⟩
  rw [hj]
  exact BitRange.contains_lsb _

/-- Fitting the parts of a register together leaves the enumerations those of its table. -/
lemma enums_madeFrom_table (h : MadeFrom path t described r) :
    ∃ ts, (t.tables "enum").optional? = some ts ∧
      List.Forall₂ (RegisterEnum.MadeFrom (inside path r.name)) (ts.getD []) r.enums := by
  obtain ⟨ts, hts, hmade⟩ := h.enums_madeFrom
  refine ⟨ts, hts, ?_⟩
  rw [h.enums_eq]
  refine forall₂_trans ?_ hmade (RegisterEnum.forall₂_settleAll described.enums)
  intro u e settled hu hsettled
  rw [hsettled]
  exact ⟨hu.name_eq, hu.range_eq, hu.description_eq, hu.values_accepted⟩

/-- The values of an enumeration were read as unsigned numbers. -/
lemma value_unsigned (h : MadeFrom path t described r) {e : RegisterEnum} (he : e ∈ r.enums)
    {v : EnumValue} (hv : v ∈ e.values) : 0 ≤ v.value ∧ v.value ≤ Table.maxUnsigned := by
  obtain ⟨ts, _, hmade⟩ := h.enums_madeFrom_table
  obtain ⟨u, _, hu⟩ := exists_of_forall₂_of_mem hmade he
  obtain ⟨us, _, haccepted⟩ := hu.values_accepted
  obtain ⟨w, _, hw⟩ := exists_of_forall₂_of_mem haccepted hv
  obtain ⟨_, hvalue, _⟩ := EnumValue.check_outcome_eq_some_iff.mp hw.1
  exact (Table.unsigned_eq_valid_iff.mp hvalue).2

lemma value_nonneg (h : MadeFrom path t described r) {e : RegisterEnum} (he : e ∈ r.enums)
    {v : EnumValue} (hv : v ∈ e.values) : 0 ≤ v.value := (h.value_unsigned he hv).1

lemma enumsFit (h : MadeFrom path t described r) : r.EnumsFit := by
  have hfits (e : RegisterEnum) (he : e ∈ r.enums) :=
    RegisterEnum.fits_of_settleAll h.enums_clean (h.enums_eq ▸ he)
  constructor
  case ranges_distinct =>
    rw [h.enums_eq]
    exact RegisterEnum.pairwise_range_settleAll h.enums_clean
  case existsUnique_field =>
    intro e he
    obtain ⟨_, hfit, _⟩ := hfits e he
    exact h.existsUnique_field hfit.exists_field
  case not_reserved =>
    intro e he
    obtain ⟨_, hfit, _⟩ := hfits e he
    exact hfit.not_reserved
  case value_bounds =>
    intro e he v hv
    obtain ⟨maxValue, hfit, hvalues, _⟩ := hfits e he
    rw [← BitRange.natCast_maxValue hfit.maxValue_eq]
    exact ⟨h.value_nonneg he hv, (RegisterEnum.valuesProblems_eq_nil_iff.mp hvalues).1 v hv⟩
  case values_nodup =>
    intro e he
    obtain ⟨_, _, hvalues, _⟩ := hfits e he
    exact List.pairwise_map.mpr (RegisterEnum.valuesProblems_eq_nil_iff.mp hvalues).2.1
  case isComplete_iff =>
    intro e he
    obtain ⟨maxValue, hfit, hvalues, hcomplete⟩ := hfits e he
    obtain ⟨hbounds, hdistinct, _⟩ := RegisterEnum.valuesProblems_eq_nil_iff.mp hvalues
    have hlength : (e.values.map (·.value)).length = e.values.length := List.length_map _
    rw [hcomplete, beq_iff_eq, ← BitRange.natCast_maxValue hfit.maxValue_eq, ← hlength]
    refine RegisterEnum.length_eq_iff_mem (List.pairwise_map.mpr hdistinct) fun n hn => ?_
    obtain ⟨v, hv, rfl⟩ := List.mem_map.mp hn
    exact ⟨h.value_nonneg he hv, hbounds v hv⟩
  case exists_maxValue =>
    intro e he
    obtain ⟨maxValue, hfit, _⟩ := hfits e he
    exact ⟨maxValue, hfit.maxValue_eq⟩

end MadeFrom

end Register

end RegisterMap
