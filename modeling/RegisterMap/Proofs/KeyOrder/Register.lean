import RegisterMap.Check.Register
import RegisterMap.Proofs.KeyOrder.Reading
import RegisterMap.Proofs.Part

/-!
# Registers in another order of keys

What is made of the table of a register, or of a part of one, does not depend on the order of its
keys, nor does it depend on it whether there are diagnostics.
-/

namespace RegisterMap

variable {α : Type} {path : Path} {t t' : Table}

/-! ### Checks alike -/

/-- Checks with the same outcome. Either both of them or neither has diagnostics. -/
structure Checked.Alike (c c' : Checked α) : Prop where
  outcome_eq : c.outcome = c'.outcome
  clean_iff : c.report.diagnostics = [] ↔ c'.report.diagnostics = []

lemma Checked.Alike.accepts_iff {c c' : Checked (Option α)} (h : c.Alike c') {a : α} :
    c.Accepts a ↔ c'.Accepts a := by
  rw [Checked.Accepts, Checked.Accepts, h.outcome_eq, h.clean_iff]

/-- Checks of lists of tables that accepted the same, and refused tables that are the same up to the
order of keys. -/
structure CheckedList.Alike (c c' : CheckedList α) : Prop where
  accepted_eq : c.accepted = c'.accepted
  refused_reordered : List.Forall₂ Table.Reordered c.refused c'.refused
  clean_iff : c.report.diagnostics = [] ↔ c'.report.diagnostics = []

namespace CheckedList

variable {check : Table → Checked (Option α)}

lemma ofTables_alike (hcheck : ∀ t t', t.Reordered t' → (check t).Alike (check t'))
    {ts ts' : List Table} (h : List.Forall₂ Table.Reordered ts ts') :
    (ofTables check ts).Alike (ofTables check ts') := by
  induction h with
  | nil => exact ⟨rfl, .nil, .rfl⟩
  | @cons t t' ts ts' ht _ ih =>
    obtain ⟨houtcome, hclean⟩ := hcheck t t' ht
    have hreport : (check t).report.diagnostics = [] ∧ (ofTables check ts).report.diagnostics = [] ↔
        (check t').report.diagnostics = [] ∧ (ofTables check ts').report.diagnostics = [] :=
      and_congr hclean ih.clean_iff
    simp only [ofTables]
    rw [← houtcome]
    cases (check t).outcome with
    | none =>
      refine ⟨ih.accepted_eq, .cons ht ih.refused_reordered, ?_⟩
      simpa only [Report.diagnostics_append, List.append_eq_nil_iff] using hreport
    | some a =>
      refine ⟨congrArg (a :: ·) ih.accepted_eq, ih.refused_reordered, ?_⟩
      simpa only [Report.diagnostics_append, List.append_eq_nil_iff] using hreport

lemma ofReading_alike (hcheck : ∀ t t', t.Reordered t' → (check t).Alike (check t'))
    {r r' : Reading (List Table)} (h : Reading.Alike (List.Forall₂ Table.Reordered) r r') :
    (ofReading check r).Alike (ofReading check r') := by
  refine ofTables_alike hcheck ?_
  cases h with
  | absent => exact .nil
  | invalid => exact .nil
  | valid h => exact h

end CheckedList

/-! ### Parts -/

lemma EnumValue.check_alike (path : Path) (h : t.Reordered t') :
    (EnumValue.check path t).Alike (EnumValue.check path t') := by
  have hname := h.name "name"
  have hvalue := h.unsigned "value" Table.maxUnsigned
  have hdescription := h.text "description"
  constructor
  · simp only [check, hname.value?_eq, hvalue.value?_eq, hdescription.optional?_eq]
  · simp only [check, hname.value?_eq, Report.diagnostics_ofDiagnostics, List.append_eq_nil_iff,
      hname.requiredProblems_iff, h.unknownKeys, hvalue.requiredProblems_iff,
      hdescription.problems_iff]

lemma RegisterEnum.check_alike (path : Path) (h : t.Reordered t') :
    (RegisterEnum.check path t).Alike (RegisterEnum.check path t') := by
  have hname := h.name "name"
  have hrange := h.convertedText "bit" Conversion.bitRange
  have hdescription := h.text "description"
  have htables := h.tables "values"
  have hvalues (inner : Path) := CheckedList.ofReading_alike
    (fun _ _ => EnumValue.check_alike inner) htables
  constructor
  · simp only [check, hname.value?_eq, hrange.value?_eq, hdescription.optional?_eq,
      (hvalues _).accepted_eq, Option.bind_eq_bind, htables.value?_bind]
  · simp only [check, hname.value?_eq, Report.diagnostics_append, Report.diagnostics_ofDiagnostics,
      List.append_eq_nil_iff, hname.requiredProblems_iff, h.unknownKeys,
      hrange.requiredProblems_iff, hdescription.problems_iff, htables.requiredProblems_iff,
      (hvalues _).clean_iff]

lemma BitField.checkFit_alike (h : t.Reordered t') {range : BitRange} {isReserved : Bool}
    {name description : Option String} :
    (BitField.checkFit path t range isReserved name description).Alike
      (BitField.checkFit path t' range isReserved name description) := by
  have hhas : t.has = t'.has := funext h.has_eq
  have hproblems : reservedProblems path t = reservedProblems path t' := by
    rw [reservedProblems, reservedProblems, hhas]
  unfold checkFit
  rw [hproblems]
  exact ⟨rfl, .rfl⟩

lemma BitField.check_alike (path : Path) (h : t.Reordered t') :
    (BitField.check path t).Alike (BitField.check path t') := by
  have hrange := h.convertedText "bit" Conversion.bitRange
  have hreserved := h.boolean "reserved"
  have hname := h.name "name"
  have hdescription := h.text "description"
  simp only [check, hrange.value?_eq, hreserved.optional?_eq, hname.optional?_eq,
    hdescription.optional?_eq]
  split
  · constructor
    · exact (checkFit_alike h).outcome_eq
    · simp only [Report.diagnostics_append, Report.diagnostics_ofDiagnostics,
        List.append_eq_nil_iff, hrange.requiredProblems_iff, h.unknownKeys,
        hreserved.problems_iff, hname.problems_iff, hdescription.problems_iff,
        (checkFit_alike h).clean_iff]
  · constructor
    · rfl
    · simp only [Report.diagnostics_ofDiagnostics, List.append_eq_nil_iff,
        hrange.requiredProblems_iff, h.unknownKeys,
        hreserved.problems_iff, hname.problems_iff, hdescription.problems_iff]

/-! ### Registers -/

lemma BitField.refusedRanges?_eq {ts ts' : List Table} (h : List.Forall₂ Table.Reordered ts ts') :
    BitField.refusedRanges? ts = BitField.refusedRanges? ts' := by
  unfold refusedRanges?
  induction h with
  | nil => rfl
  | @cons t t' ts ts' ht _ ih =>
    have hrange : refusedRange? t = refusedRange? t' := by
      have hget := ht.get? "bit"
      unfold refusedRange?
      generalize t.get? "bit" = v, t'.get? "bit" = v' at hget
      cases hget with
      | none => rfl
      | some hv => cases hv <;> rfl
    rw [List.mapM_cons, List.mapM_cons, hrange, ih]

namespace Placement

variable {d : Description}

lemma kinds_eq (h : t.Reordered t') : kinds t = kinds t' := by
  simp only [kinds, h.has_eq]

lemma hasSlot_eq (h : t.Reordered t') : hasSlot d t = hasSlot d t' := by
  simp only [hasSlot, h.has_eq, kinds_eq h]

lemma locatingKinds_eq (h : t.Reordered t') : locatingKinds d t = locatingKinds d t' := by
  simp only [locatingKinds, hasSlot_eq h, kinds_eq h]

lemma slot_alike (d : Description) (h : t.Reordered t') :
    Reading.Alike Eq (slot d t) (slot d t') := by
  unfold slot
  rw [hasSlot_eq h]
  split
  · exact h.unsigned _ _
  · exact .absent

lemma ofAddress_alike (d : Description) (h : t.Reordered t') (kind : LocationKind) :
    Reading.Alike Eq (ofAddress d t kind) (ofAddress d t' kind) := by
  have hunsigned := (h.unsigned kind.key (maxAddress d)).bind_same fun n => .valid (same kind n)
  have hget := h.get? kind.key
  unfold ofAddress
  generalize t.get? kind.key = v, t'.get? kind.key = v' at hget
  cases hget with
  | none => exact hunsigned
  | some hv =>
    cases hv with
    | text s => exact .refl _
    | _ => exact hunsigned

lemma ofKey_alike (d : Description) (h : t.Reordered t') (kind : LocationKind) :
    Reading.Alike Eq (ofKey d t kind) (ofKey d t' kind) := by
  cases kind with
  | index => exact (h.unsigned _ _).bind_same _
  | relative => exact ofAddress_alike d h _
  | absolute => exact ofAddress_alike d h _

end Placement

namespace Register

variable {d : Description} {name : String}

lemma propertyProblems_iff {r r' : Reading α} (h : Reading.Alike Eq r r') {key what : String}
    {default : Option α} : propertyProblems path key what default r = [] ↔
      propertyProblems path key what default r' = [] := by
  cases h <;> cases default <;> simp [propertyProblems, Reading.problems]

lemma checkLocated_alike (h : t.Reordered t') (kind : LocationKind) :
    (checkLocated d path t name kind).Alike (checkLocated d path t' name kind) := by
  have hdescription := h.text "description"
  have hslot := Placement.slot_alike d h
  have hplacement := Placement.ofKey_alike d h kind
  have hsize := h.convertedSize "size"
  have haccess := h.convertedText "access" Conversion.access
  have hfieldTables := h.tables "bit_fields"
  have henumTables := h.tables "enum"
  have hfields := CheckedList.ofReading_alike (fun _ _ => BitField.check_alike path)
    hfieldTables
  have henums := CheckedList.ofReading_alike (fun _ _ => RegisterEnum.check_alike path)
    henumTables
  have hrefused := BitField.refusedRanges?_eq hfields.refused_reordered
  simp only [checkLocated, hdescription.optional?_eq, hslot.optional?_eq, hplacement.value?_eq,
    hsize.orDefault?_eq, haccess.orDefault?_eq, Option.bind_eq_bind, hfieldTables.value?_bind,
    henumTables.optional?_bind, hfields.accepted_eq, henums.accepted_eq, hrefused]
  -- Whether a register comes of the table or not, its keys and its parts are reported alike.
  split <;>
    refine ⟨rfl, ?_⟩ <;>
    simp only [Report.diagnostics_append, Report.diagnostics_ofDiagnostics,
      List.append_eq_nil_iff, hdescription.problems_iff, hslot.problems_iff,
      hplacement.problems_iff, propertyProblems_iff hsize, propertyProblems_iff haccess,
      hfieldTables.requiredProblems_iff, hfields.clean_iff, henumTables.problems_iff,
      henums.clean_iff]

lemma checkNamed_alike (h : t.Reordered t') :
    (checkNamed d path t name).Alike (checkNamed d path t' name) := by
  have hdescription := h.text "description"
  have hslot := Placement.slot_alike d h
  unfold checkNamed
  rw [Placement.locatingKinds_eq h]
  split
  · exact checkLocated_alike h _
  · refine ⟨rfl, ?_⟩
    simp only [Report.diagnostics_ofDiagnostics, List.append_eq_nil_iff, hdescription.problems_iff,
      hslot.problems_iff]

/-- What is made of the table of a register does not depend on the order of its keys. -/
lemma check_alike (d : Description) (path : Path) (h : t.Reordered t') :
    (check d path t).Alike (check d path t') := by
  have hname := h.name "name"
  simp only [check, hname.value?_eq]
  split
  · refine ⟨rfl, ?_⟩
    simp only [Report.diagnostics_ofDiagnostics, List.append_eq_nil_iff,
      hname.requiredProblems_iff, h.unknownKeys]
  · refine ⟨(checkNamed_alike h).outcome_eq, ?_⟩
    simp only [Report.diagnostics_append, Report.diagnostics_ofDiagnostics,
      List.append_eq_nil_iff, hname.requiredProblems_iff, h.unknownKeys,
      (checkNamed_alike h).clean_iff]

end Register

end RegisterMap
