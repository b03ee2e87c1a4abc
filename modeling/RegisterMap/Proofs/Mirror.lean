import RegisterMap.Proofs.Document

/-!
# Models that mirror their documents

Nothing is left out of a model in silence. Entity by entity, and in document order, the model of an
accepted document carries what the tables of the document say: names, ranges and numbers. A document
with an entity that is refused is not accepted, and there is a diagnostic for it.
-/

namespace RegisterMap

variable {path : Path} {t : Table}

/-! ### Parts of a register -/

/-- An enum value carries the name and the number of its table. -/
structure EnumValue.Mirrors (t : Table) (v : EnumValue) : Prop where
  name_eq : t.get? "name" = some (.text v.name)
  value_eq : t.get? "value" = some (.integer v.value)

lemma EnumValue.mirrors_of_accepts {v : EnumValue} (h : (check path t).Accepts v) :
    Mirrors t v := by
  obtain ⟨hname, hvalue, _⟩ := check_outcome_eq_some_iff.mp h.1
  exact ⟨(Table.name_eq_valid_iff.mp hname).1, (Table.unsigned_eq_valid_iff.mp hvalue).1⟩

/-- The text of a table names a range. -/
def BitRange.Mirrors (t : Table) (range : BitRange) : Prop :=
  ∃ text, t.get? "bit" = some (.text text) ∧ read text true = .ok range

lemma BitRange.mirrors_iff {range : BitRange} :
    Mirrors t range ↔ t.convertedText "bit" Conversion.bitRange = .valid range := by
  simp only [Mirrors, Table.convertedText_eq_valid_iff, Conversion.bitRange_eq_ok_iff]

/-- A bit field carries the range of its table, and its name if it has one. -/
structure BitField.Mirrors (t : Table) (f : BitField) : Prop where
  range_mirrors : f.range.Mirrors t
  name_eq : t.get? "name" = f.name.map .text

lemma BitField.mirrors_of_accepts {f : BitField} (h : (check path t).Accepts f) :
    Mirrors t f := by
  obtain ⟨_, husable, _⟩ := check_outcome_eq_some_iff.mp h.1
  refine ⟨BitRange.mirrors_iff.mpr husable.range_eq, ?_⟩
  obtain ⟨habsent, hname⟩ | ⟨name, hvalid, hname⟩ := Reading.optional?_eq_some_iff.mp husable.name_eq
  · rw [hname, Table.name_eq_absent_iff.mp habsent]
    rfl
  · rw [hname, (Table.name_eq_valid_iff.mp hvalid).1]
    rfl

/-- An enumeration carries the name and the range of its table, and one value for each table of its
array of values. -/
structure RegisterEnum.Mirrors (t : Table) (e : RegisterEnum) : Prop where
  name_eq : t.get? "name" = some (.text e.name)
  range_mirrors : e.range.Mirrors t
  values_mirror : ∃ ts : List Table, t.get? "values" = some (.array (ts.map .table)) ∧
    List.Forall₂ EnumValue.Mirrors ts e.values

lemma RegisterEnum.MadeFrom.mirrors {e : RegisterEnum} (h : MadeFrom path t e) : Mirrors t e := by
  obtain ⟨ts, hts, hvalues⟩ := h.values_accepted
  exact ⟨(Table.name_eq_valid_iff.mp h.name_eq).1, BitRange.mirrors_iff.mpr h.range_eq, ts,
    Table.tables_eq_valid_iff.mp hts, hvalues.imp fun _ _ => EnumValue.mirrors_of_accepts⟩

/-! ### Registers -/

/-- A register carries the name of its table, one bit field for each table of its array of bit
fields, and one enumeration for each table of its array of enumerations, if it has one. -/
structure Register.Mirrors (t : Table) (r : Register) : Prop where
  name_eq : t.get? "name" = some (.text r.name)
  bitFields_mirror : ∃ ts : List Table, t.get? "bit_fields" = some (.array (ts.map .table)) ∧
    List.Forall₂ BitField.Mirrors ts r.bitFields
  enums_mirror : (t.get? "enum" = none ∧ r.enums = []) ∨
    ∃ ts : List Table, t.get? "enum" = some (.array (ts.map .table)) ∧
      List.Forall₂ RegisterEnum.Mirrors ts r.enums

lemma Register.MadeFrom.mirrors {described r : Register} (h : MadeFrom path t described r) :
    Mirrors t r := by
  refine ⟨(Table.name_eq_valid_iff.mp h.name_eq).1, ?_, ?_⟩
  · obtain ⟨ts, hts, _, hfields⟩ := h.bitFields_accepted
    exact ⟨ts, Table.tables_eq_valid_iff.mp hts,
      hfields.imp fun _ _ => BitField.mirrors_of_accepts⟩
  · obtain ⟨ts, hts, henums⟩ := h.enums_madeFrom_table
    obtain ⟨habsent, rfl⟩ | ⟨us, hvalid, rfl⟩ := Reading.optional?_eq_some_iff.mp hts
    · exact .inl ⟨Table.tables_eq_absent_iff.mp habsent, List.forall₂_nil_left_iff.mp henums⟩
    · exact .inr ⟨us, Table.tables_eq_valid_iff.mp hvalid,
        henums.imp fun _ _ => RegisterEnum.MadeFrom.mirrors⟩

lemma Register.mirrors_of_accepts {d : Description} {r : Register}
    (h : (check d path t).Accepts r) : Mirrors t r := by
  obtain ⟨_, hmade⟩ := exists_madeFrom_of_accepts h
  exact hmade.mirrors

/-! ### Documents -/

/-- A description carries the name of its table. -/
lemma Description.name_of_check (path : Path) {d : Description}
    (h : (check path t).outcome = some d) : t.get? "name" = some (.text d.name) :=
  (Table.name_eq_valid_iff.mp (name_eq_of_check h)).1

namespace Model

/-- A model mirrors a document if its description carries the name of its table, and its registers
correspond to those of the document and each mirrors its table. -/
structure Mirrors (root : Table) (m : Model) : Prop where
  description_mirrors : ∃ t : Table, root.get? "register_description" = some (.table t) ∧
    t.get? "name" = some (.text m.description.name)
  registers_mirror :
    Registers.Corresponds (fun _ => Register.Mirrors) (root.get? "register") m.registers

lemma mirrors_of_ofTable {root : Table} {m : Model} (h : ofTable root = .ok m) :
    Mirrors root m := by
  refine ⟨?_, (corresponds_of_ofTable h).imp fun _ _ _ => Register.mirrors_of_accepts⟩
  obtain ⟨hdescription, _⟩ := check_outcome_eq_some_iff.mp (ofTable_eq_ok_iff.mp h)
  have hsome := hdescription.1
  simp only [checkDescription] at hsome
  split at hsome
  next => cases hsome
  next t ht =>
    exact ⟨t, Table.table_eq_valid_iff.mp (Reading.value?_eq_some_iff.mp ht),
      Description.name_of_check [] hsome⟩

/-- Some entity of a document is refused: its description, what it has in place of its registers, a
group that is no array, an item of an array that is no table, or the table of a register, a bit
field, an enumeration or an enum value. -/
inductive Refuses (root : Table) : Prop
  | description (h : (checkDescription root).outcome = none)
  | registers {value : Value} (hvalue : root.get? "register" = some value)
    (harray : ∀ items, value ≠ .array items) (htable : ∀ entries, value ≠ .table entries)
  | group {entries : Table} (hentries : root.get? "register" = some (.table entries))
    {name : String} {value : Value} (hvalue : (name, value) ∈ entries)
    (harray : ∀ items, value ≠ .array items)
  | item {path : Path} {items : List Value}
    (hitems : (path, items) ∈ Registers.arraysBelow (root.get? "register"))
    {item : Value} (hitem : item ∈ items) (htable : ∀ entries, item ≠ .table entries)
  | register {path : Path} {t : Table}
    (ht : (path, t) ∈ Registers.tablesBelow (root.get? "register")) {d : Description}
    (hd : (checkDescription root).outcome = some d) (h : (Register.check d path t).outcome = none)
  | bitField {path : Path} {t : Table}
    (ht : (path, t) ∈ Registers.tablesBelow (root.get? "register")) {ts : List Table}
    (hts : t.get? "bit_fields" = some (.array (ts.map .table))) {u : Table} (hu : u ∈ ts)
    {inner : Path} (h : (BitField.check inner u).outcome = none)
  | enumeration {path : Path} {t : Table}
    (ht : (path, t) ∈ Registers.tablesBelow (root.get? "register")) {ts : List Table}
    (hts : t.get? "enum" = some (.array (ts.map .table))) {u : Table} (hu : u ∈ ts)
    {inner : Path} (h : (RegisterEnum.check inner u).outcome = none)
  | enumValue {path : Path} {t : Table}
    (ht : (path, t) ∈ Registers.tablesBelow (root.get? "register")) {ts : List Table}
    (hts : t.get? "enum" = some (.array (ts.map .table))) {u : Table} (hu : u ∈ ts)
    {us : List Table} (hus : u.get? "values" = some (.array (us.map .table))) {v : Table}
    (hv : v ∈ us) {inner : Path} (h : (EnumValue.check inner v).outcome = none)

section Refusals

variable {root : Table} {m : Model}

/-- Every register table of an accepted document has given a register. -/
lemma exists_madeFrom_of_mem (h : ofTable root = .ok m) {path : Path} {t : Table}
    (ht : (path, t) ∈ Registers.tablesBelow (root.get? "register")) :
    ∃ described r, (Register.check m.description path t).Accepts r ∧
      Register.MadeFrom path t described r := by
  obtain ⟨r, _, haccepts⟩ :=
    exists_of_mem_of_forall₂ (forall₂_allRegisters (corresponds_of_ofTable h)) ht
  obtain ⟨described, hmade⟩ := Register.exists_madeFrom_of_accepts haccepts
  exact ⟨described, r, haccepts, hmade⟩

lemma exists_bitField_of_mem (h : ofTable root = .ok m) {path : Path} {t : Table}
    (ht : (path, t) ∈ Registers.tablesBelow (root.get? "register")) {ts : List Table}
    (hts : t.get? "bit_fields" = some (.array (ts.map .table))) {u : Table} (hu : u ∈ ts)
    (inner : Path) : ∃ f, (BitField.check inner u).outcome = some f := by
  obtain ⟨_, r, _, hmade⟩ := exists_madeFrom_of_mem h ht
  obtain ⟨_, hvalid, _, haccepts⟩ := hmade.bitFields_accepted
  rw [Table.tables_eq_valid_iff.mpr hts] at hvalid
  cases hvalid
  obtain ⟨f, _, hf⟩ := exists_of_mem_of_forall₂ haccepts hu
  exact ⟨f, BitField.check_outcome_eq_some_iff.mpr (BitField.check_outcome_eq_some_iff.mp hf.1)⟩

lemma exists_enum_of_mem (h : ofTable root = .ok m) {path : Path} {t : Table}
    (ht : (path, t) ∈ Registers.tablesBelow (root.get? "register")) {ts : List Table}
    (hts : t.get? "enum" = some (.array (ts.map .table))) {u : Table} (hu : u ∈ ts) :
    ∃ inner e, RegisterEnum.MadeFrom inner u e := by
  obtain ⟨_, r, _, hmade⟩ := exists_madeFrom_of_mem h ht
  obtain ⟨_, hvalid, hmades⟩ := hmade.enums_madeFrom_table
  rw [Table.tables_eq_valid_iff.mpr hts] at hvalid
  cases hvalid
  obtain ⟨e, _, he⟩ := exists_of_mem_of_forall₂ hmades hu
  exact ⟨_, e, he⟩

/-- No entity of an accepted document is refused. -/
lemma not_refuses_of_ofTable (h : ofTable root = .ok m) : ¬ Refuses root := by
  have hcorresponds := corresponds_of_ofTable h
  intro hrefuses
  cases hrefuses with
  | description hnone =>
    obtain ⟨⟨hsome, _⟩, _⟩ := check_outcome_eq_some_iff.mp (ofTable_eq_ok_iff.mp h)
    rw [hnone] at hsome
    cases hsome
  | registers hvalue harray htable =>
    rw [hvalue] at hcorresponds
    generalize m.registers = registers at hcorresponds
    cases hcorresponds with
    | list => exact harray _ rfl
    | groups => exact htable _ rfl
  | group hentries hvalue harray =>
    rw [hentries] at hcorresponds
    generalize m.registers = registers at hcorresponds
    cases hcorresponds with
    | groups hgroups =>
      obtain ⟨_, _, _, ts, hts, _⟩ := exists_of_mem_of_forall₂ hgroups hvalue
      exact harray _ hts
  | item hitems hitem htable =>
    obtain ⟨_, _, ts, hts, _⟩ := exists_of_mem_of_forall₂ (forall₂_groups hcorresponds) hitems
    cases hts
    obtain ⟨t, _, rfl⟩ := List.mem_map.mp hitem
    exact htable t rfl
  | register ht hd hnone =>
    obtain ⟨⟨hsome, _⟩, _⟩ := check_outcome_eq_some_iff.mp (ofTable_eq_ok_iff.mp h)
    obtain ⟨_, r, ⟨hr, _⟩, _⟩ := exists_madeFrom_of_mem h ht
    rw [Option.some.inj (hsome.symm.trans hd), hnone] at hr
    cases hr
  | bitField ht hts hu hnone =>
    obtain ⟨f, hf⟩ := exists_bitField_of_mem h ht hts hu _
    rw [hnone] at hf
    cases hf
  | enumeration ht hts hu hnone =>
    obtain ⟨_, e, he⟩ := exists_enum_of_mem h ht hts hu
    obtain ⟨us, hus, _⟩ := he.values_accepted
    rw [RegisterEnum.check_outcome_eq_none_iff] at hnone
    exact hnone ⟨_, _, _, us, he.name_eq, he.range_eq, he.description_eq, hus⟩
  | enumValue ht hts hu hus hv hnone =>
    obtain ⟨_, e, he⟩ := exists_enum_of_mem h ht hts hu
    obtain ⟨_, hvalid, haccepts⟩ := he.values_accepted
    rw [Table.tables_eq_valid_iff.mpr hus] at hvalid
    cases hvalid
    obtain ⟨v, _, hv⟩ := exists_of_mem_of_forall₂ haccepts hv
    -- The path of an enum value only shows in its report.
    cases hnone.symm.trans hv.1

/-- A document is not rejected without a diagnostic. -/
lemma ne_nil_of_ofTable {ds : List Diagnostic} (h : ofTable root = .error ds) : ds ≠ [] := by
  simp only [ofTable] at h
  split at h
  next => cases h
  next hnone =>
    cases h
    exact check_explains hnone

/-- Nothing is left out in silence: the model of an accepted document mirrors the document, and if
any entity is refused then the document is rejected with diagnostics. Every check that refuses its
table has itself reported why. -/
theorem ofTable_mirrors_or_explains (root : Table) :
    (∀ m, ofTable root = .ok m → Mirrors root m) ∧
      (Refuses root → ∃ ds, ofTable root = .error ds ∧ ds ≠ []) ∧
      (∀ d path t, (Register.check d path t).Explains) ∧
      (∀ path t, (BitField.check path t).Explains) ∧
      (∀ path t, (RegisterEnum.check path t).Explains) ∧
      (∀ path t, (EnumValue.check path t).Explains) ∧
      ∀ path t, (Description.check path t).Explains := by
  refine ⟨fun m h => mirrors_of_ofTable h, fun hrefuses => ?_, fun _ _ _ => Register.check_explains,
    fun _ _ => BitField.check_explains, fun _ _ => RegisterEnum.check_explains,
    fun _ _ => EnumValue.check_explains, fun _ _ => Description.check_explains⟩
  cases h : ofTable root with
  | ok m => exact absurd hrefuses (not_refuses_of_ofTable h)
  | error ds => exact ⟨ds, rfl, ne_nil_of_ofTable h⟩

/-- The model of the small document mirrors it, and without its description it is rejected. -/
theorem ofTable_mirrors_or_explains_smallDocument :
    Mirrors smallDocument smallModel ∧
      ∃ ds, ofTable (smallDocument.drop 1) = .error ds ∧ ds ≠ [] :=
  ⟨(ofTable_mirrors_or_explains smallDocument).1 smallModel ofTable_smallDocument,
    (ofTable_mirrors_or_explains (smallDocument.drop 1)).2.1 (.description rfl)⟩

end Refusals

end Model

end RegisterMap
