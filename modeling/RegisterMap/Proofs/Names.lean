import RegisterMap.Proofs.Document

/-!
# The names in accepted documents

The names in the model of an accepted document are identifiers. In snake case, registers differ from
the others of their group and bit fields from the others of their register, and as constants the
values of an enumeration differ from each other.
-/

namespace RegisterMap

/-! ### Parts of a register -/

namespace Register

variable {path : Path} {t : Table} {described r : Register}

lemma fieldNameProblems_eq_nil_iff :
    r.fieldNameProblems path = [] ↔
      (r.namedFields.map (·.1)).Pairwise fun a b => Name.snake a ≠ Name.snake b := by
  rw [fieldNameProblems, List.map_eq_nil_iff, clashes_eq_nil_iff]

lemma nameProblems_eq_nil_iff {registers : List Register} :
    nameProblems path registers = [] ↔
      (registers.map Register.name).Pairwise fun a b => Name.snake a ≠ Name.snake b := by
  rw [nameProblems, List.map_eq_nil_iff, clashes_eq_nil_iff]

/-- A register whose bit fields differ in snake case, and the values of each of its enumerations as
constants. -/
structure NamesDiffer (r : Register) : Prop where
  fields : (r.namedFields.map (·.1)).Pairwise fun a b => Name.snake a ≠ Name.snake b
  values : ∀ e ∈ r.enums, (e.values.map (·.name)).Pairwise fun a b =>
    Name.constant a ≠ Name.constant b

lemma MadeFrom.namesDiffer (h : MadeFrom path t described r) : r.NamesDiffer := by
  refine ⟨fieldNameProblems_eq_nil_iff.mp h.fieldNames_clean, fun e he => ?_⟩
  obtain ⟨_, _, hvalues, _⟩ := RegisterEnum.fits_of_settleAll h.enums_clean (h.enums_eq ▸ he)
  exact List.pairwise_map.mpr (RegisterEnum.valuesProblems_eq_nil_iff.mp hvalues).2.2

lemma MadeFrom.isIdentifier_name (h : MadeFrom path t described r) :
    Name.isIdentifier r.name = true :=
  (Table.name_eq_valid_iff.mp h.name_eq).2

lemma MadeFrom.isIdentifier_fieldName (h : MadeFrom path t described r) {f : BitField}
    (hf : f ∈ r.bitFields) {name : String} (hname : f.name = some name) :
    Name.isIdentifier name = true := by
  obtain ⟨ts, _, _, haccepted⟩ := h.bitFields_accepted
  obtain ⟨u, _, hu⟩ := exists_of_forall₂_of_mem haccepted hf
  obtain ⟨_, husable, _⟩ := BitField.check_outcome_eq_some_iff.mp hu.1
  obtain ⟨_, hnone⟩ | ⟨other, hvalid, hsome⟩ := Reading.optional?_eq_some_iff.mp husable.name_eq
  · rw [hname] at hnone
    cases hnone
  · rw [hname] at hsome
    cases hsome
    exact (Table.name_eq_valid_iff.mp hvalid).2

end Register

/-! ### Groups of registers -/

/-- A group of registers whose name, if it has one, is an identifier, and whose registers differ in
snake case. -/
structure GroupNamed (name : Option String) (registers : List Register) : Prop where
  isIdentifier : ∀ text ∈ name, Name.isIdentifier text = true
  names_differ : (registers.map Register.name).Pairwise fun a b => Name.snake a ≠ Name.snake b

namespace Registers

variable {d : Description} {path : Path}

lemma names_differ_of_checkArray {items : List Value}
    (hclean : (checkArray d path items).report.diagnostics = []) :
    ((checkArray d path items).outcome.map Register.name).Pairwise fun a b =>
      Name.snake a ≠ Name.snake b := by
  simp only [checkArray, Report.diagnostics_append, Report.diagnostics_ofDiagnostics,
    List.append_eq_nil_iff] at hclean ⊢
  exact Register.nameProblems_eq_nil_iff.mp hclean.2

lemma isIdentifier_of_groupNameProblems {earlier : List String} {name : String}
    (hclean : groupNameProblems path earlier name = []) : Name.isIdentifier name = true := by
  unfold groupNameProblems at hclean
  split_ifs at hclean with h
  exact h

lemma groupNamed_of_checkGroups {earlier : List String} {entries : Table}
    (hclean : (checkGroups d path earlier entries).report.diagnostics = []) :
    ∀ group ∈ (checkGroups d path earlier entries).outcome, GroupNamed (some group.1) group.2 := by
  induction entries generalizing earlier with
  | nil =>
    intro group hgroup
    cases hgroup
  | cons entry entries ih =>
    obtain ⟨name, value⟩ := entry
    cases value with
    | array items =>
      simp only [checkGroups, Report.diagnostics_append, Report.diagnostics_ofDiagnostics,
        List.append_eq_nil_iff, List.forall_mem_cons] at hclean ⊢
      obtain ⟨⟨hname, hitems⟩, hrest⟩ := hclean
      refine ⟨⟨?_, names_differ_of_checkArray hitems⟩, ih hrest⟩
      rintro _ ⟨⟩
      exact isIdentifier_of_groupNameProblems hname
    | _ => simp [checkGroups] at hclean

end Registers

/-! ### Models -/

namespace Model

variable {root : Table} {m : Model}

lemma groupNamed_of_ofTable (h : ofTable root = .ok m) :
    ∀ group ∈ m.groups, GroupNamed group.1 group.2 := by
  obtain ⟨_, hclean, hregisters⟩ := check_outcome_eq_some_iff.mp (ofTable_eq_ok_iff.mp h)
  unfold groups
  rw [hregisters]
  unfold Registers.check at hclean ⊢
  split at hclean <;> dsimp only
  next => simp
  next items hitems =>
    simpa using ⟨by simp, Registers.names_differ_of_checkArray hclean⟩
  next entries hentries =>
    intro group hgroup
    obtain ⟨entry, hentry, rfl⟩ := List.mem_map.mp hgroup
    exact Registers.groupNamed_of_checkGroups hclean entry hentry
  next => simp

lemma namesDiffer_of_ofTable (h : ofTable root = .ok m) {r : Register} (hr : r ∈ m.allRegisters) :
    r.NamesDiffer := by
  obtain ⟨_, _, _, hmade⟩ := exists_madeFrom_of_ofTable h hr
  exact hmade.namesDiffer

end Model

end RegisterMap
