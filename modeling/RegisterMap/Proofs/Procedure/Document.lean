import RegisterMap.Procedure.Document
import RegisterMap.Proofs.Mirror
import RegisterMap.Proofs.Procedure.Register

/-!
# Reading documents step by step

Going through a document step by step comes to what the check of the document tells. Nothing that is
taken for granted on the way turns out wrong, no value that cannot be used is left without a
diagnostic, and a table that is refused is always gone past. So the procedure ends in one of two
ways: with the model and no diagnostic, or with the diagnostics, of which there is at least one.
-/

namespace RegisterMap.Procedure

/-! ### The description -/

lemma run_checkDescription (t : Table) (c : Context) :
    (checkDescription t).run c = .ok (Description.check c.path t).outcome
      (c.record (Description.check c.path t).report.diagnostics) := by
  have hreport (ds : List Diagnostic) (d? : Option Description) :
      Report.diagnostics (Report.ofDiagnostics ds ++
        d?.toList.map fun d => .milestone (.description d.name d.version)) = ds := by
    cases d? <;> simp
  unfold checkDescription Description.check
  dsimp only
  rw [hreport]
  simp -implicitDefEqProofs only [run_inspect, EStateM.run_bind, reads_name.run_required, run_inside,
    Inspection.enter_after, run_checkUnknownKeys, (reads_convertedText _).run_required,
    reads_text.run_eq, (reads_convertedText _).run_eq, (reads_converted _).run_eq,
    EStateM.run_get, Inspection.table_after, Inspection.table_enter, Inspection.kind_after,
    Inspection.kind_enter, Inspection.context_after, Context.path_record, Inspection.path_enter,
    Inspection.after_after, Inspection.hasFailed_after, Inspection.hasFailed_enter]
  rcases (t.name "name").value? with _ | name
  · simp
  rcases (t.convertedText "version" Conversion.version).value? with _ | version
  · simp
  rcases hdescription : (t.text "description").optional? with _ | description
  · simp
  rcases hextension : (t.convertedText "extension" Conversion.extension).optional? with _ | extension
  · simp
  rcases hsize : (t.converted "default_register_size" Conversion.size).optional? with _ | size
  · simp
  rcases haccess : (t.convertedText "default_register_access" Conversion.access).optional?
    with _ | access
  · simp
  simp only [Reading.value?_eq_of_optional? hdescription, Reading.value?_eq_of_optional? hextension,
    Reading.value?_eq_of_optional? hsize, Reading.value?_eq_of_optional? haccess]
  cases t.converted "index_size" Conversion.size <;>
    cases t.converted "address_size" Conversion.addressSize <;>
      simp [Reading.value?, Reading.optional?, Reading.orDefault?]

/-! ### Registers -/

section Registers

variable {d : Description}

lemma run_checkItems (items : List Value) (c : Context) :
    (checkItems d items).run c = .ok (Registers.checkItems d c.path items).outcome
      (c.record (Registers.checkItems d c.path items).report.diagnostics) := by
  induction items generalizing c with
  | nil => simp [checkItems, Registers.checkItems]
  | cons item items ih =>
    cases item with
    | table t =>
      simp only [checkItems, EStateM.run_bind, (checkRegister_follows d).run_unlessRefused, ih]
      simp [Registers.checkItems]
    | _ => simp [checkItems, Registers.checkItems, ih]

lemma run_checkArray (items : List Value) (c : Context) :
    (checkArray d items).run c = .ok (Registers.checkArray d c.path items).outcome
      (c.record (Registers.checkArray d c.path items).report.diagnostics) := by
  unfold checkArray Registers.checkArray
  simp only [EStateM.run_bind, run_checkItems, run_checkRegisterNames]
  simp

/-- The dictionary holds the names of the groups so far, as far as they are names. -/
def HoldsGroups (earlier : List String) (seen : Dictionary String) : Prop :=
  HoldsFirst Name.pascal id (earlier.filter Name.isIdentifier) seen

variable {earlier : List String} {seen : Dictionary String}

lemma run_enterGroupName (h : HoldsGroups earlier seen) (name : String) :
    ∃ seen', (∀ c, (enterGroupName name seen).run c =
        .ok seen' (c.record (Registers.groupNameProblems c.path earlier name))) ∧
      HoldsGroups (earlier ++ [name]) seen' := by
  unfold enterGroupName Registers.groupNameProblems HoldsGroups
  cases hname : Name.isIdentifier name with
  | true =>
    obtain ⟨seen', hrun, hseen'⟩ := run_enter h name .root
      (fun other => s!"register groups '{other}' and '{name}' have the same name")
    exact ⟨seen', hrun, by simpa [hname] using hseen'⟩
  | false => exact ⟨seen, fun _ => rfl, by simpa [hname, HoldsGroups] using h⟩

/-- The groups of a table are checked one by one, each in a scope of its own. -/
lemma run_checkGroups (h : HoldsGroups earlier seen) (entries : Table) (c : Context) :
    (checkGroups d entries seen).run c =
      .ok (Registers.checkGroups d c.path earlier entries).outcome
        (c.record (Registers.checkGroups d c.path earlier entries).report.diagnostics) := by
  induction entries generalizing earlier seen c with
  | nil => simp [checkGroups, Registers.checkGroups]
  | cons entry rest ih =>
    obtain ⟨name, value⟩ := entry
    cases value with
    | array items =>
      obtain ⟨seen', hrun, hseen'⟩ := run_enterGroupName h name
      simp only [checkGroups, EStateM.run_bind, run_within, checkGroup, hrun, run_checkArray,
        EStateM.run_pure, mapState_ok, ih hseen', Registers.checkGroups]
      simp [Context.leave_record, Context.leave_enter, Context.path_enter]
    | _ =>
      simp only [checkGroups, EStateM.run_bind, run_within, checkGroup, run_recordInvalid,
        EStateM.run_pure, mapState_ok, Context.leave_record, Context.leave_enter, ih h,
        Registers.checkGroups]
      simp [Context.path_enter]

/-- The registers of a document are checked as its check does. -/
lemma run_checkRegisters {i : Inspection} (hkind : i.kind = .root) :
    (checkRegisters d).run i = .ok (Registers.check d i.context.path i.table).outcome
      (i.after (Registers.check d i.context.path i.table).report.diagnostics
        (i.table.has "register" && (Registers.check d i.context.path i.table).outcome.isNone)) := by
  have hgroups : HoldsGroups [] [] := holdsFirst_nil
  simp only [checkRegisters, Registers.check, EStateM.run_bind, run_value]
  cases hregister : i.table.get? "register" with
  | none => simp [Table.has, hregister]
  | some value =>
    cases value with
    | array items =>
      simp only [EStateM.run_bind, run_aside_record (run_checkArray _ _), EStateM.run_pure]
      simp
    | table entries =>
      simp only [EStateM.run_bind, run_aside_record (run_checkGroups hgroups _ _),
        EStateM.run_pure]
      simp
    | _ =>
      simp only [run_invalid, Reading.problems, hkind]
      simp [Table.has, hregister]

end Registers

/-! ### Documents -/

lemma run_failDocument {α : Type} (i : Inspection) :
    (failDocument : Procedure Inspection α).run i = .error (.failed i.context.diagnostics) i := rfl

/-- A document that has been described is accepted if nothing at all has been recorded. -/
lemma run_checkDescribed (d : Description) (root : Table) (ds : List Diagnostic) :
    mapState Inspection.context
        ((checkDescribed d).run (Inspection.after ⟨root, .root, .empty, false⟩ ds false)) =
      let all := ds ++ (Registers.check d [] root).report.diagnostics
      if all.isEmpty then .ok ⟨d, (Registers.check d [] root).outcome⟩ ⟨[], []⟩
      else .error (.failed all) ⟨[], all⟩ := by
  have hpath : (Context.empty.record ds).path = [] := rfl
  have hrecord (ds : List Diagnostic) : Context.empty.record ds = ⟨[], ds⟩ := rfl
  rw [checkDescribed, EStateM.run_bind, run_checkRegisters rfl]
  simp only [EStateM.run_bind, EStateM.run_get, Inspection.table_after, Inspection.context_after,
    Inspection.after_after, hpath]
  simp only [Context.hasErrors, hrecord]
  cases hall : ds ++ (Registers.check d [] root).report.diagnostics with
  | nil => simp [hrecord]
  | cons first rest => simp [run_failDocument, hrecord]

/-- The content of a document is that of its check, or else the document fails with the diagnostics
of the check. -/
lemma result_eq (root : Table) : result root = match Model.ofTable root with
    | .ok m => .ok m ⟨[], []⟩
    | .error ds => .error (.failed ds) ⟨[], ds⟩ := by
  have hpath : Context.empty.path = [] := rfl
  have hrecord (ds : List Diagnostic) : Context.empty.record ds = ⟨[], ds⟩ := rfl
  unfold result checkDocument Model.ofTable Model.check Model.checkDescription
  simp only [run_inspect, EStateM.run_bind, run_checkUnknownKeys, reads_table.run_required,
    Inspection.table_after, Inspection.kind_after, Inspection.context_after, Context.path_record,
    Inspection.after_after, hpath]
  rcases (root.table "register_description").value? with _ | t
  · simp [run_failDocument, hrecord]
  simp only [EStateM.run_bind, run_aside_record (run_checkDescription _ _), Context.path_record,
    Inspection.context_after, Inspection.after_after, hpath]
  rcases (Description.check [] t).outcome with _ | d
  · simp [run_failDocument, hrecord]
  simp only [Option.isNone_some, Bool.or_false, run_checkDescribed, Report.diagnostics_append,
    Report.diagnostics_ofDiagnostics]
  split_ifs with hclean
  · rfl
  · simp

/-- A document is read to its end without a diagnostic, or it fails with at least one. No step on
the way stops in any other way: what is taken for granted holds, a value that cannot be used is
recorded, and a refused table is gone past. -/
theorem result_ok_or_failed (root : Table) :
    (∃ m, result root = .ok m ⟨[], []⟩ ∧ Model.ofTable root = .ok m) ∨
      ∃ ds, ds ≠ [] ∧ result root = .error (.failed ds) ⟨[], ds⟩ ∧
        Model.ofTable root = .error ds := by
  rw [result_eq]
  cases h : Model.ofTable root with
  | ok m => exact .inl ⟨m, rfl, rfl⟩
  | error ds => exact .inr ⟨ds, Model.ne_nil_of_ofTable h, rfl, rfl⟩

end RegisterMap.Procedure
