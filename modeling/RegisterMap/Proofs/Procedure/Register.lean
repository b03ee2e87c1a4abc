import RegisterMap.Proofs.Procedure.Coverage
import RegisterMap.Proofs.Procedure.Enumeration
import RegisterMap.Proofs.Procedure.Part
import RegisterMap.Proofs.Register

/-!
# Checking registers step by step

A register is located by the keys that its table has, with the slot index separated from them. A
property that has a default is looked up like any other key. When the table has not failed by then,
everything that the register is made of is at hand.
-/

namespace RegisterMap.Procedure

variable {α : Type}

/-! ### Refused bit fields -/

lemma run_refusedRanges (ts : List Table) (c : Context) :
    (refusedRanges ts).run c = .ok (BitField.refusedRanges? ts) c := by
  induction ts generalizing c with
  | nil => rfl
  | cons t ts ih =>
    have hnone (h : BitField.refusedRange? t = none) :
        BitField.refusedRanges? (t :: ts) = none := by
      simp [BitField.refusedRanges?, h]
    have hsome {range : BitRange} (h : BitField.refusedRange? t = some range) :
        BitField.refusedRanges? (t :: ts) = (BitField.refusedRanges? ts).map (range :: ·) := by
      simp [BitField.refusedRanges?, h, Option.map_eq_bind]
    unfold refusedRanges
    cases hbit : t.get? "bit" with
    | none =>
      rw [hnone (by simp [BitField.refusedRange?, hbit])]
      rfl
    | some value =>
      cases value with
      | text text =>
        simp only [EStateM.run_bind, run_orElseUsable_usable]
        cases hread : BitRange.read text false with
        | error e =>
          rw [hnone (by simp [BitField.refusedRange?, hbit, hread, Except.toOption])]
          rfl
        | ok range =>
          have hrange : BitField.refusedRange? t = some range := by
            simp [BitField.refusedRange?, hbit, hread, Except.toOption]
          rw [hsome hrange]
          simp only [EStateM.run_bind, ih]
          rfl
      | _ =>
        rw [hnone (by simp [BitField.refusedRange?, hbit])]
        rfl

/-! ### Locations -/

section Locations

variable {d : Description} {i : Inspection} {kind : LocationKind}

/-- The index of a register that has another location is taken from the keys that locate it. -/
lemma locatingKinds_of_hasSlot {t : Table} (h : Placement.hasSlot d t = true) :
    Placement.locatingKinds d t = (Placement.kinds t).erase .index := by
  have hnodup : (Placement.kinds t).Nodup := List.Nodup.filter _ (by decide)
  rw [Placement.locatingKinds, if_pos h, hnodup.erase_eq_filter]

/-- The slot index is read, if there is one, and kept apart from the other keys. -/
lemma run_separateSlot (d : Description) (i : Inspection) :
    (separateSlot d).run i =
      .ok ((Placement.slot d i.table).value?, Placement.locatingKinds d i.table)
        (i.after ((Placement.slot d i.table).problems i.kind i.context.path LocationKind.index.key)
          (Placement.slot d i.table).optional?.isNone) := by
  have hslot : (d.extension = some .vga ∧ LocationKind.index ∈ Placement.kinds i.table ∧
      1 < (Placement.kinds i.table).length) ↔ Placement.hasSlot d i.table = true := by
    simp [Placement.hasSlot, Placement.mem_kinds_iff, and_assoc]
  simp only [separateSlot, EStateM.run_bind, EStateM.run_get, hslot]
  by_cases h : Placement.hasSlot d i.table = true
  · rw [if_pos h, locatingKinds_of_hasSlot h, Placement.slot, if_pos h]
    simp only [EStateM.run_bind, (reads_unsigned _).run_eq, EStateM.run_pure]
  · rw [if_neg h, Placement.slot, if_neg h, Placement.locatingKinds, if_neg h]
    simp [Reading.value?, Reading.problems, Reading.optional?]

lemma run_placeTemplate {text : String} (h : i.table.get? kind.key = some (.text text)) :
    (placeTemplate d kind text).run i = .ok (Placement.ofTemplate d kind text).value?
      (i.after ((Placement.ofTemplate d kind text).problems i.kind i.context.path kind.key)
        (Placement.ofTemplate d kind text).optional?.isNone) := by
  unfold placeTemplate Placement.ofTemplate
  by_cases hvga : d.extension = some .vga
  · have hconverted : i.table.convertedText kind.key Conversion.addresses =
        (Reading.valid text).convert Conversion.addresses := by
      rw [Table.convertedText, Table.text_eq_valid_iff.mpr h]
    rw [if_pos hvga, if_pos hvga]
    simp only [andThen, EStateM.run_bind, (reads_convertedText _).run_eq, hconverted,
      Reading.convert, Reading.bind]
    cases Conversion.addresses text with
    | error e => simp [Reading.value?, Reading.problems, Reading.optional?]
    | ok addresses =>
      simp only [Placement.addressFault?, Reading.value?, Reading.problems, Reading.optional?,
        Option.isNone_some, Inspection.after_nil_false]
      cases ([addresses.1, addresses.2] : List Nat).find? (Placement.maxAddress d < ·) with
      | none => simp
      | some address => exact run_invalid kind.key _ i
  · rw [if_neg hvga, if_neg hvga]
    exact run_invalid kind.key _ i

/-- A location that is no template is a number. -/
lemma run_placeNumber (maximum : Int) :
    (placeNumber kind maximum).run i =
      .ok ((i.table.unsigned kind.key maximum).bind fun n => .valid (Placement.same kind n)).value?
        (i.after (((i.table.unsigned kind.key maximum).bind fun n =>
            .valid (Placement.same kind n)).problems i.kind i.context.path kind.key)
          ((i.table.unsigned kind.key maximum).bind fun n =>
            .valid (Placement.same kind n)).optional?.isNone) := by
  have hreads : Reads (fun key => andThen (unsigned key maximum) fun n =>
        return some (Placement.same kind n))
      (fun t key => (t.unsigned key maximum).bind fun n => .valid (Placement.same kind n)) := by
    refine (reads_unsigned maximum).andThen (fun key n i => ?_) fun n => ?_
    · simp [Reading.value?, Reading.problems, Reading.optional?]
    · simp
  exact hreads.run_eq kind.key i

lemma run_placeAddress : (placeAddress d kind).run i =
    .ok (Placement.ofAddress d i.table kind).value?
      (i.after ((Placement.ofAddress d i.table kind).problems i.kind i.context.path kind.key)
        (Placement.ofAddress d i.table kind).optional?.isNone) := by
  simp only [placeAddress, Placement.ofAddress, EStateM.run_bind, run_value]
  cases h : i.table.get? kind.key with
  | none => exact run_placeNumber _
  | some value =>
    cases value with
    | text text => exact run_placeTemplate h
    | _ => exact run_placeNumber _

/-- A register is located by the key of the one kind that is present. -/
lemma run_place (d : Description) (present : List LocationKind) (i : Inspection) :
    (place d present).run i = match present with
      | [kind] => .ok (Placement.ofKey d i.table kind).value?
          (i.after ((Placement.ofKey d i.table kind).problems i.kind i.context.path kind.key)
            (Placement.ofKey d i.table kind).optional?.isNone)
      | kinds => .error (.refused i.kind) (i.after
          [.constraint i.kind i.context.path (Placement.countProblem kinds.isEmpty)] true) := by
  have hreject (message : String) : (reject message : Procedure Inspection (Option Placement)).run i =
      .error (.refused i.kind) (i.after [.constraint i.kind i.context.path message] true) := by
    have hafter : i.reject message = i.after [.constraint i.kind i.context.path message] true := by
      simp [Inspection.reject, Inspection.constraint, Inspection.note, Inspection.fail,
        Inspection.after]
    simp only [reject, EStateM.run_bind, EStateM.run_modify, EStateM.run_get, hafter]
    rfl
  unfold place
  rcases present with _ | ⟨kind, _ | ⟨other, others⟩⟩
  · exact hreject _
  · cases kind with
    | index => exact run_placeNumber _
    | relative => exact run_placeAddress
    | absolute => exact run_placeAddress
  · exact hreject _

end Locations

/-! ### Properties with a default -/

/-- A key with a default fails if its value is unusable, or if it is absent without a default. -/
lemma run_property {read : String → Procedure Inspection (Option α)}
    {reading : Table → String → Reading α} (h : Reads read reading) (key what : String)
    (default : Option α) {i : Inspection} (hkind : i.kind = .register) :
    (property key what read default).run i = .ok ((reading i.table key).orDefault? default)
      (i.after (Register.propertyProblems i.context.path key what default (reading i.table key))
        ((reading i.table key).orDefault? default).isNone) := by
  have habsent := h.absent_iff i.table key
  simp only [property, EStateM.run_bind, h.run_eq, EStateM.run_get]
  cases hr : reading i.table key with
  | absent =>
    have hkey : i.table.has key = false := Table.has_eq_false_iff.mpr (habsent.mp hr)
    have hfail (message : String) : (i.constraint message).fail =
        i.after [.constraint .register i.context.path message] true := by
      simp [Inspection.constraint, Inspection.note, Inspection.fail, Inspection.after, hkind]
    cases default <;>
      simp [Reading.value?, Reading.problems, Reading.optional?, Reading.orDefault?,
        Register.propertyProblems, hkey, hfail, - bind_pure_comp]
  | invalid fault =>
    have hkey : i.table.has key = true := by
      rw [← Bool.not_eq_false, Table.has_eq_false_iff, ← habsent, hr]
      simp
    simp [Reading.value?, Reading.problems, Reading.optional?, Reading.orDefault?,
      Register.propertyProblems, hkey, hkind]
  | valid a =>
    simp [Reading.value?, Reading.problems, Reading.optional?, Reading.orDefault?,
      Register.propertyProblems]

/-! ### Registers -/

section Registers

variable {d : Description} {i : Inspection} {kind : LocationKind}

lemma run_settle (r : Register) (refused : Option (List BitRange)) (c : Context) :
    (settle r refused).run c = .ok (r.settle c.path refused).outcome
      (c.record (r.settle c.path refused).report.diagnostics) := by
  unfold settle Register.settle RegisterEnum.settleAll
  simp only [EStateM.run_bind, run_checkBitFields, run_checkFieldNames, run_matchEnums claims_nil]
  simp

/-- The parts of a register are fitted together while its table is left aside. -/
lemma run_settle_aside (r : Register) (refused : List Table) (i : Inspection) :
    (aside do settle r (← refusedRanges refused)).run i =
      .ok (r.settle i.context.path (BitField.refusedRanges? refused)).outcome
        (i.after (r.settle i.context.path (BitField.refusedRanges? refused)).report.diagnostics
          false) := by
  apply run_aside_record
  simp only [EStateM.run_bind, run_refusedRanges, run_settle]

/-- A register with a location of one kind is checked as the check does. -/
lemma run_checkLocated (hkind : i.kind = .register) (hfailed : i.hasFailed = false)
    (hkinds : Placement.locatingKinds d i.table = [kind]) (name : String) :
    (checkNamed d name).run i =
      conclude (Register.checkLocated d i.context.path i.table name kind) i := by
  have hhas : i.table.has kind.key = true :=
    Placement.has_of_mem_locatingKinds (hkinds ▸ List.mem_singleton_self kind)
  unfold checkNamed Register.checkLocated
  -- The kernel would take long to find by itself that the states along the way are equal.
  simp -implicitDefEqProofs only [EStateM.run_bind, reads_text.run_eq, run_separateSlot, run_place, hkinds,
    Inspection.table_after, hkind, Inspection.kind_after, run_property (reads_converted _),
    run_property (reads_convertedText _), reads_tables.run_required, reads_tables.run_eq,
    checkBitField_follows.run_children_aside, checkEnum_follows.run_children_aside,
    Inspection.context_after, Context.path_record, Inspection.after_after, run_refuseFailed,
    Inspection.hasFailed_after, hfailed]
  -- The table is refused as soon as one of its keys has made it fail.
  rcases hdescription : (i.table.text "description").optional? with _ | description
  · simp [conclude, hkind]
  rcases hslot : (Placement.slot d i.table).optional? with _ | slot
  · simp [conclude, hkind]
  cases hplacement : Placement.ofKey d i.table kind with
  | absent =>
    -- A register is only located by a key that it has.
    rw [Placement.ofKey_eq_absent_iff, ← Table.has_eq_false_iff, hhas] at hplacement
    cases hplacement
  | invalid fault => simp [conclude, hkind, Reading.optional?, Reading.value?]
  | valid placement =>
  rcases (i.table.converted "size" Conversion.size).orDefault? d.defaultSize with _ | size
  · simp [conclude, hkind, Reading.value?]
  rcases (i.table.convertedText "access" Conversion.access).orDefault? d.defaultAccess
    with _ | access
  · simp [conclude, hkind, Reading.value?]
  rcases (i.table.tables "bit_fields").value? with _ | fieldTables
  · simp [conclude, hkind, Reading.value?]
  rcases (i.table.tables "enum").optional? with _ | enumTables
  · simp [conclude, hkind, Reading.value?]
  simp only [Reading.value?_eq_of_optional? hdescription, Reading.value?_eq_of_optional? hslot]
  simp [conclude, Reading.value?, Reading.optional?, run_settle_aside]

/-- A register without exactly one kind of location is refused at once. -/
lemma run_checkNamed (hkind : i.kind = .register) (hfailed : i.hasFailed = false) (name : String) :
    (checkNamed d name).run i = conclude (Register.checkNamed d i.context.path i.table name) i := by
  unfold Register.checkNamed
  split
  next kind hkinds => exact run_checkLocated hkind hfailed hkinds name
  next kinds hkinds =>
    simp only [checkNamed, EStateM.run_bind, reads_text.run_eq, run_separateSlot, run_place,
      Inspection.table_after, hkind, Inspection.kind_after, Inspection.context_after,
      Context.path_record, Inspection.after_after]
    simp [conclude, hkind]

lemma checkRegister_follows (d : Description) :
    Follows (checkRegister d) .register (Register.check d) := by
  intro t c
  unfold checkRegister Register.check
  simp only [run_inspect, EStateM.run_bind, reads_name.run_required, run_inside,
    Inspection.enter_after, run_checkUnknownKeys, run_refuseFailed, Inspection.table_after,
    Inspection.table_enter, Inspection.kind_after, Inspection.kind_enter, Inspection.context_after,
    Context.path_record, Inspection.path_enter, Inspection.after_after, Inspection.hasFailed_after,
    Inspection.hasFailed_enter]
  cases (t.name "name").value? with
  | none => simp [answer]
  | some name =>
    simp only [Option.isNone_some, Bool.or_false, Bool.false_eq_true, if_false, granted_some, EStateM.run_pure]
    rw [run_checkNamed rfl rfl, mapState_conclude]
    simp [answer]

end Registers

end RegisterMap.Procedure
