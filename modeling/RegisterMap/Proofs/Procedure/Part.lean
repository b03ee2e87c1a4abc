import RegisterMap.Procedure.Register
import RegisterMap.Proofs.Procedure.Reading

/-!
# Checking parts step by step

The procedure for a table ends like the check of the table: with the part that the check accepts, or
with the table refused. The context gains the diagnostics of the check's report either way.
-/

namespace RegisterMap.Procedure

variable {α : Type}

/-! ### Answers -/

/-- The end of a procedure that does what a check tells. -/
def answer (kind : TableKind) (checked : Checked (Option α)) (c : Context) :
    EStateM.Result Stop Context α :=
  match checked.outcome with
  | some a => .ok a (c.record checked.report.diagnostics)
  | none => .error (.refused kind) (c.record checked.report.diagnostics)

/-- A procedure for tables that does what a check tells. -/
def Follows (p : Table → Procedure Context α) (kind : TableKind)
    (check : Path → Table → Checked (Option α)) : Prop :=
  ∀ t c, (p t).run c = answer kind (check c.path t) c

/-- The end of an inspection that does what a check tells. -/
def conclude (checked : Checked (Option α)) (i : Inspection) : EStateM.Result Stop Inspection α :=
  match checked.outcome with
  | some a => .ok a (i.after checked.report.diagnostics false)
  | none => .error (.refused i.kind) (i.after checked.report.diagnostics true)

/-- A scope in which the inspection ends is left with an answer. -/
lemma mapState_conclude (checked : Checked (Option α)) (t : Table) (kind : TableKind) (c : Context)
    (crumb : Option String) (ds : List Diagnostic) (fails : Bool) :
    mapState Inspection.context (mapState Inspection.leave
        (conclude checked ((Inspection.enter ⟨t, kind, c, false⟩ crumb).after ds fails))) =
      answer kind ⟨checked.outcome, Report.ofDiagnostics ds ++ checked.report⟩ c := by
  unfold conclude answer
  cases checked.outcome <;> simp

section Follows

variable {p : Table → Procedure Context α} {kind : TableKind}
  {check : Path → Table → Checked (Option α)}

/-- Going on where a table is refused leaves the outcome of the check. -/
lemma Follows.run_unlessRefused (h : Follows p kind check) (t : Table) (c : Context) :
    (unlessRefused (p t)).run c =
      .ok (check c.path t).outcome (c.record (check c.path t).report.diagnostics) := by
  rw [Procedure.run_unlessRefused, h t c, answer]
  cases (check c.path t).outcome <;> rfl

/-- The tables of a list are checked one by one. -/
lemma Follows.run_children (h : Follows p kind check) (ts : List Table) (c : Context) :
    (children p ts).run c =
      .ok ((CheckedList.ofTables (check c.path) ts).accepted,
          (CheckedList.ofTables (check c.path) ts).refused)
        (c.record (CheckedList.ofTables (check c.path) ts).report.diagnostics) := by
  induction ts generalizing c with
  | nil => simp [children, CheckedList.ofTables]
  | cons t ts ih =>
    simp only [children, EStateM.run_bind, h.run_unlessRefused, ih, Context.path_record,
      Context.record_record, CheckedList.ofTables]
    cases (check c.path t).outcome <;> simp

/-- The tables of a key are checked while its table is left aside. -/
lemma Follows.run_children_aside (h : Follows p kind check) (r : Reading (List Table))
    (i : Inspection) :
    (aside (children p (r.value?.getD []))).run i =
      .ok ((CheckedList.ofReading (check i.context.path) r).accepted,
          (CheckedList.ofReading (check i.context.path) r).refused)
        (i.after (CheckedList.ofReading (check i.context.path) r).report.diagnostics false) :=
  run_aside_record (h.run_children _ _)

end Follows

/-! ### Enum values -/

lemma checkEnumValue_follows : Follows checkEnumValue .enumValue EnumValue.check := by
  intro t c
  unfold checkEnumValue answer EnumValue.check
  simp only [run_inspect, EStateM.run_bind, reads_name.run_required, run_inside,
    Inspection.enter_after, run_checkUnknownKeys, (reads_unsigned _).run_required, reads_text.run_eq,
    run_refuseFailed, Inspection.table_after, Inspection.table_enter, Inspection.kind_after,
    Inspection.kind_enter, Inspection.context_after, Context.path_record, Inspection.path_enter,
    Inspection.after_after, Inspection.hasFailed_after, Inspection.hasFailed_enter,
    Report.diagnostics_ofDiagnostics]
  -- A value that is missing has made the table fail, so it is refused before the value is needed.
  cases (t.name "name").value? with
  | none => simp
  | some name =>
    cases (t.unsigned "value" Table.maxUnsigned).value? with
    | none => simp
    | some value => cases t.text "description" <;> simp [Reading.value?, Reading.optional?]

/-! ### Enumerations -/

lemma checkEnum_follows : Follows checkEnum .enumeration RegisterEnum.check := by
  intro t c
  unfold checkEnum answer RegisterEnum.check
  simp only [run_inspect, EStateM.run_bind, reads_name.run_required, run_inside,
    Inspection.enter_after, run_checkUnknownKeys, (reads_convertedText _).run_required,
    reads_text.run_eq, reads_tables.run_required, checkEnumValue_follows.run_children_aside,
    run_refuseFailed, Inspection.table_after, Inspection.table_enter, Inspection.kind_after,
    Inspection.kind_enter, Inspection.context_after, Context.path_record, Inspection.path_enter,
    Inspection.after_after, Inspection.hasFailed_after, Inspection.hasFailed_enter,
    Report.diagnostics_append, Report.diagnostics_ofDiagnostics]
  cases (t.name "name").value? with
  | none => simp
  | some name =>
    cases (t.convertedText "bit" Conversion.bitRange).value? with
    | none => simp
    | some range =>
      cases (t.tables "values").value? with
      | none => simp
      | some tables => cases t.text "description" <;> simp [Reading.value?, Reading.optional?]

/-! ### Bit fields -/

/-- The table fails if it has one of the keys. -/
lemma run_failForKeys (keys : List String) (i : Inspection) :
    (failForKeys keys).run i = .ok () (i.after
      ((keys.filter i.table.has).map fun key => .constraint i.kind i.context.path
        s!"key '{key}' is not allowed when bit field is marked as reserved")
      (keys.any i.table.has)) := by
  induction keys generalizing i with
  | nil => simp [failForKeys]
  | cons key keys ih =>
    simp only [failForKeys, EStateM.run_bind, EStateM.run_get]
    cases hkey : i.table.has key with
    | false => simp [ih, hkey]
    | true =>
      have hfail (message : String) : (i.constraint message).fail =
          i.after [.constraint i.kind i.context.path message] true := by
        simp [Inspection.constraint, Inspection.note, Inspection.fail, Inspection.after]
      simp [ih, hkey, hfail]

/-- The usable keys of a bit field are fitted together as the check does. -/
lemma run_fitBitField {i : Inspection} (hkind : i.kind = .bitField) (hfailed : i.hasFailed = false)
    (range : BitRange) (isReserved : Bool) (name description : Option String) :
    (fitBitField range isReserved name description).run i =
      conclude (BitField.checkFit i.context.path i.table range isReserved name description) i := by
  unfold fitBitField BitField.checkFit conclude
  cases isReserved with
  | true =>
    have hproblems : (BitField.keysOfNamed.filter i.table.has).map (fun key =>
        Diagnostic.constraint i.kind i.context.path
          s!"key '{key}' is not allowed when bit field is marked as reserved") =
        BitField.reservedProblems i.context.path i.table := by
      rw [hkind, BitField.reservedProblems]
    have hany : BitField.keysOfNamed.any i.table.has =
        !(BitField.reservedProblems i.context.path i.table).isEmpty := by
      rw [Bool.eq_iff_iff]
      simp [BitField.reservedProblems]
    simp only [if_true, EStateM.run_bind, run_failForKeys, run_refuseFailed, hproblems, hany]
    cases (BitField.reservedProblems i.context.path i.table).isEmpty <;>
      simp [hfailed, hkind]
  | false =>
    cases name with
    | some name => simp
    | none =>
      simp [Inspection.missingKey, Inspection.failWith_eq_after, hkind, - bind_pure_comp]

lemma checkBitField_follows : Follows checkBitField .bitField BitField.check := by
  intro t c
  unfold checkBitField answer BitField.check
  simp only [run_inspect, EStateM.run_bind, (reads_convertedText _).run_required, run_inside,
    Inspection.enter_after, run_checkUnknownKeys, reads_boolean.run_eq, reads_name.run_eq,
    reads_text.run_eq, run_refuseFailed, Inspection.table_after, Inspection.table_enter,
    Inspection.kind_after, Inspection.kind_enter, Inspection.context_after, Context.path_record,
    Inspection.path_enter, Inspection.after_after, Inspection.hasFailed_after,
    Inspection.hasFailed_enter]
  cases (t.convertedText "bit" Conversion.bitRange).value? with
  | none => simp
  | some range =>
    cases hreserved : (t.boolean "reserved").optional? with
    | none => simp
    | some isReserved =>
      cases hname : (t.name "name").optional? with
      | none => simp
      | some name =>
        cases hdescription : (t.text "description").optional? with
        | none => simp
        | some description =>
          simp only [Reading.value?_eq_of_optional? hreserved, Reading.value?_eq_of_optional? hname,
            Reading.value?_eq_of_optional? hdescription, Option.isNone_some, Bool.or_false,
            Bool.false_eq_true, if_false, granted_some, EStateM.run_pure]
          rw [run_fitBitField rfl rfl, mapState_conclude]
          simp [answer]

end RegisterMap.Procedure
