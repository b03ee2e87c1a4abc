import RegisterMap.Check.Document
import RegisterMap.Proofs.Register

/-!
# Documents without diagnostics

A document is accepted exactly if its description is usable and nothing at all was reported. The
registers of the model then correspond to the register tables of the document, array by array and
table by table.
-/

namespace RegisterMap

variable {d : Description} {path : Path}

/-! ### The description -/

/-- The name of a description is the one in its table. -/
lemma Description.name_eq_of_check {t : Table} {d : Description}
    (h : (check path t).outcome = some d) : t.name "name" = .valid d.name := by
  simp only [check, Option.bind_eq_bind, Option.bind_eq_some_iff, Reading.value?_eq_some_iff,
    Option.pure_def, Option.some.injEq] at h
  obtain ⟨name, hname, _, _, _, _, _, _, _, _, _, _, _, _, _, _, rfl⟩ := h
  exact hname

/-- A description table is not refused without a diagnostic. -/
lemma Description.check_explains {t : Table} : (Description.check path t).Explains := by
  intro hnone hclean
  simp only [check, Report.diagnostics_append, Report.diagnostics_ofDiagnostics,
    List.append_eq_nil_iff, Reading.requiredProblems_eq_nil_iff, Reading.problems_eq_nil_iff]
    at hnone hclean
  obtain ⟨⟨⟨⟨⟨⟨⟨⟨⟨_, name, hname⟩, version, hversion⟩, description, hdescription⟩, extension,
    hextension⟩, size, hsize⟩, access, haccess⟩, index, hindex⟩, address, haddress⟩, _⟩ := hclean
  obtain ⟨indexSize, hindexSize⟩ := Reading.exists_orDefault?_eq_some .size64 hindex
  obtain ⟨addressSize, haddressSize⟩ := Reading.exists_orDefault?_eq_some none haddress
  simp [hname, hversion, hdescription, hextension, hsize, haccess, hindexSize, haddressSize,
    Reading.value?] at hnone

namespace Registers

/-! ### Arrays of registers -/

/-- The tables among the items of an array. -/
def tablesOf (items : List Value) : List Table :=
  items.filterMap fun | .table t => some t | _ => none

@[simp] lemma tablesOf_map_table (ts : List Table) : tablesOf (ts.map .table) = ts := by
  induction ts with
  | nil => rfl
  | cons t ts ih => simp [tablesOf]

/-- The items of an array that was checked without diagnostics are tables, and a register was made
from each. -/
lemma forall₂_checkItems {items : List Value}
    (hclean : (checkItems d path items).report.diagnostics = []) :
    ∃ ts, items = ts.map .table ∧ List.Forall₂ (fun t r => (Register.check d path t).Accepts r) ts
      (checkItems d path items).outcome := by
  induction items with
  | nil => exact ⟨[], rfl, .nil⟩
  | cons item items ih =>
    cases item with
    | table t =>
      simp only [checkItems, Report.diagnostics_append, List.append_eq_nil_iff] at hclean ⊢
      obtain ⟨r, hr⟩ := Register.check_explains.exists_accepts hclean.1
      obtain ⟨ts, rfl, hts⟩ := ih hclean.2
      refine ⟨t :: ts, rfl, ?_⟩
      rw [hr.1]
      exact .cons hr hts
    | _ => simp [checkItems] at hclean

lemma forall₂_checkArray {items : List Value}
    (hclean : (checkArray d path items).report.diagnostics = []) :
    ∃ ts, items = ts.map .table ∧ List.Forall₂ (fun t r => (Register.check d path t).Accepts r) ts
      (checkArray d path items).outcome := by
  simp only [checkArray, Report.diagnostics_append, List.append_eq_nil_iff] at hclean ⊢
  exact forall₂_checkItems hclean.1

/-! ### Groups of registers -/

/-- The path inside a group with a name. -/
def inside (path : Path) (name : String) : Path := path.enter (some s!"register group '{name}'")

/-- A group beside the entry of its table: they have the same name, and the registers correspond to
the items of an array, one by one. -/
def GroupCorresponds (R : Path → Table → Register → Prop) (path : Path) (entry : String × Value)
    (group : String × List Register) : Prop :=
  group.1 = entry.1 ∧ ∃ ts, entry.2 = .array (ts.map .table) ∧
    List.Forall₂ (R (inside path entry.1)) ts group.2

lemma forall₂_checkGroups {earlier : List String} {entries : Table}
    (hclean : (checkGroups d path earlier entries).report.diagnostics = []) :
    List.Forall₂ (GroupCorresponds (fun path t r => (Register.check d path t).Accepts r) path)
      entries (checkGroups d path earlier entries).outcome := by
  induction entries generalizing earlier with
  | nil => exact .nil
  | cons entry entries ih =>
    obtain ⟨name, value⟩ := entry
    cases value with
    | array items =>
      simp only [checkGroups, Report.diagnostics_append, List.append_eq_nil_iff] at hclean ⊢
      exact .cons ⟨rfl, (forall₂_checkArray hclean.1.2).imp fun ts hts => ⟨by rw [hts.1], hts.2⟩⟩
        (ih hclean.2)
    | _ => simp [checkGroups] at hclean

/-! ### The registers of a document -/

/-- The registers of a model beside the value that a document has for them: nothing, a list beside
an array, or groups beside a table. -/
inductive Corresponds (R : Path → Table → Register → Prop) :
    Option Value → Option Registers → Prop
  | absent : Corresponds R none none
  | list {ts : List Table} {registers : List Register} (h : List.Forall₂ (R []) ts registers) :
    Corresponds R (some (.array (ts.map .table))) (some (.list registers))
  | groups {entries : Table} {groups : List (String × List Register)}
    (h : List.Forall₂ (GroupCorresponds R []) entries groups) :
    Corresponds R (some (.table entries)) (some (.groups groups))

lemma Corresponds.imp {R S : Path → Table → Register → Prop}
    (hRS : ∀ path t r, R path t r → S path t r) {value : Option Value} {rs : Option Registers}
    (h : Corresponds R value rs) : Corresponds S value rs := by
  cases h with
  | absent => exact .absent
  | list h => exact .list (h.imp (hRS []))
  | groups h =>
    refine .groups (h.imp ?_)
    rintro entry group ⟨hname, ts, hts, hregisters⟩
    exact ⟨hname, ts, hts, hregisters.imp (hRS _)⟩

/-- The arrays of registers below the value that a document has for its registers, with their
paths. -/
def arraysBelow : Option Value → List (Path × List Value)
  | some (.array items) => [([], items)]
  | some (.table entries) => entries.filterMap fun
    | (name, .array items) => some (inside [] name, items)
    | _ => none
  | _ => []

/-- The register tables of all arrays of registers, with the paths of these. -/
def tablesBelow (value : Option Value) : List (Path × Table) :=
  (arraysBelow value).flatMap fun (path, items) => (tablesOf items).map (path, ·)

/-- The registers of a document that was checked without diagnostics correspond to its tables. -/
lemma corresponds_check {root : Table} (hclean : (check d [] root).report.diagnostics = []) :
    Corresponds (fun path t r => (Register.check d path t).Accepts r) (root.get? "register")
      (check d [] root).outcome := by
  unfold check at hclean ⊢
  split
  next h =>
    rw [h]
    exact .absent
  next items h =>
    rw [h] at hclean ⊢
    obtain ⟨ts, rfl, hts⟩ := forall₂_checkArray hclean
    exact .list hts
  next entries h =>
    rw [h] at hclean ⊢
    exact .groups (forall₂_checkGroups hclean)
  next value harray htable h =>
    rw [h] at hclean
    cases value <;> simp_all

end Registers

/-! ### Documents -/

namespace Model

/-- A document from which nothing can be made is not without diagnostics. -/
lemma checkDescription_explains {root : Table} : (checkDescription root).Explains := by
  intro hnone hclean
  simp only [checkDescription] at hnone hclean
  split at hnone
  next hvalue =>
    rw [hvalue] at hclean
    simp only [Report.diagnostics_ofDiagnostics, List.append_eq_nil_iff,
      Reading.requiredProblems_eq_nil_iff] at hclean
    obtain ⟨_, t, ht⟩ := hclean
    simp [ht, Reading.value?] at hvalue
  next t hvalue =>
    have hexplains : (Description.check [] t).Explains := Description.check_explains
    rw [hvalue, Report.diagnostics_append, List.append_eq_nil_iff] at hclean
    exact hexplains hnone hclean.2

lemma check_explains {root : Table} : (check root).Explains := by
  intro hnone hclean
  simp only [check] at hnone hclean
  split at hnone
  next hdescription =>
    rw [hdescription] at hclean
    exact checkDescription_explains hdescription hclean
  next d hdescription =>
    simp only [hdescription] at hclean
    split_ifs at hnone with hempty
    rw [if_neg hempty] at hclean
    exact hempty (List.isEmpty_iff.mpr hclean)

/-- A document is accepted exactly if its description is, nothing was reported, and the model has
what was made of the description and of the registers. -/
lemma check_outcome_eq_some_iff {root : Table} {m : Model} :
    (check root).outcome = some m ↔
      (checkDescription root).Accepts m.description ∧
        (Registers.check m.description [] root).report.diagnostics = [] ∧
        m.registers = (Registers.check m.description [] root).outcome := by
  simp only [Checked.Accepts, check]
  cases hdescription : (checkDescription root).outcome with
  | none => simp
  | some d =>
    simp only [Report.diagnostics_append, List.isEmpty_iff, List.append_eq_nil_iff,
      Option.some.injEq]
    constructor
    · intro h
      split_ifs at h with hclean
      cases h
      exact ⟨⟨rfl, hclean.1⟩, hclean.2, rfl⟩
    · rintro ⟨⟨rfl, hclean⟩, hregisters, hm⟩
      rw [if_pos ⟨hclean, hregisters⟩, ← hm]

lemma ofTable_eq_ok_iff {root : Table} {m : Model} :
    ofTable root = .ok m ↔ (check root).outcome = some m := by
  simp only [ofTable]
  cases (check root).outcome <;> simp

/-- The model of an accepted document corresponds to it. -/
lemma corresponds_of_ofTable {root : Table} {m : Model} (h : ofTable root = .ok m) :
    Registers.Corresponds
      (fun path t r => (Register.check m.description path t).Accepts r)
      (root.get? "register") m.registers := by
  obtain ⟨_, hclean, hregisters⟩ := check_outcome_eq_some_iff.mp (ofTable_eq_ok_iff.mp h)
  rw [hregisters]
  exact Registers.corresponds_check hclean

/-- The groups of a model correspond to the arrays of registers, one by one. -/
lemma forall₂_groups {R : Path → Table → Register → Prop} {value : Option Value} {m : Model}
    (h : Registers.Corresponds R value m.registers) :
    List.Forall₂ (fun array group => ∃ ts : List Table, array.2 = ts.map .table ∧
      List.Forall₂ (R array.1) ts group.2) (Registers.arraysBelow value) m.groups := by
  obtain ⟨_, registers⟩ := m
  cases h with
  | absent => exact .nil
  | list h => exact .cons ⟨_, rfl, h⟩ .nil
  | groups h =>
    simp only [groups, Registers.arraysBelow]
    induction h with
    | nil => exact .nil
    | @cons entry _ _ _ hgroup _ ih =>
      obtain ⟨name, value⟩ := entry
      obtain ⟨_, ts, hts, hregisters⟩ := hgroup
      cases hts
      exact .cons ⟨ts, rfl, hregisters⟩ ih

/-- The registers of a model correspond to the register tables, one by one. -/
lemma forall₂_allRegisters {R : Path → Table → Register → Prop} {value : Option Value} {m : Model}
    (h : Registers.Corresponds R value m.registers) :
    List.Forall₂ (fun table r => R table.1 table.2 r) (Registers.tablesBelow value)
      m.allRegisters := by
  refine List.rel_flatMap (forall₂_groups h) ?_
  rintro ⟨path, items⟩ group ⟨ts, rfl, hregisters⟩
  simp only [Registers.tablesOf_map_table, List.forall₂_map_left_iff]
  exact hregisters

/-- Every register of an accepted document was made from a register table of it. -/
lemma exists_accepts_of_ofTable {root : Table} {m : Model} (h : ofTable root = .ok m)
    {r : Register} (hr : r ∈ m.allRegisters) :
    ∃ path t, (path, t) ∈ Registers.tablesBelow (root.get? "register") ∧
      (Register.check m.description path t).Accepts r := by
  obtain ⟨⟨path, t⟩, ht, haccepts⟩ :=
    exists_of_forall₂_of_mem (forall₂_allRegisters (corresponds_of_ofTable h)) hr
  exact ⟨path, t, ht, haccepts⟩

lemma exists_madeFrom_of_ofTable {root : Table} {m : Model} (h : ofTable root = .ok m)
    {r : Register} (hr : r ∈ m.allRegisters) :
    ∃ path t described, Register.MadeFrom path t described r := by
  obtain ⟨path, t, _, haccepts⟩ := exists_accepts_of_ofTable h hr
  obtain ⟨described, hmade⟩ := Register.exists_madeFrom_of_accepts haccepts
  exact ⟨path, t, described, hmade⟩

/-! ### A small document -/

/-- A document with one register of two bit fields, one of them with an enumeration. -/
def smallDocument : Table :=
  [("register_description", .table [("name", .text "chip"), ("version", .text "0.1")]),
   ("register", .array [.table
     [("name", .text "status"), ("absolute_address", .integer 0), ("size", .integer 8),
      ("access", .text "r"),
      ("bit_fields", .array
        [.table [("bit", .text "7:1"), ("reserved", .boolean true)],
         .table [("bit", .text "0"), ("name", .text "ready")]]),
      ("enum", .array [.table
        [("name", .text "state"), ("bit", .text "0"), ("values", .array
          [.table [("value", .integer 1), ("name", .text "on")],
           .table [("value", .integer 0), ("name", .text "off")]])]])]])]

def smallRegister : Register :=
  { name := "status", access := .read, size := .size8, readLocation := ⟨.absolute, 0⟩,
    writeLocation := ⟨.absolute, 0⟩,
    bitFields := [.reserved ⟨7, 1, by omega⟩, ⟨.single 0, some "ready", none⟩],
    enums := [⟨"state", .single 0, [⟨1, "on", none⟩, ⟨0, "off", none⟩], none, true⟩],
    description := none, slot := none }

def smallModel : Model :=
  ⟨⟨"chip", .version01, none, none, none, none, .size64, none⟩, some (.list [smallRegister])⟩

lemma ofTable_smallDocument : ofTable smallDocument = .ok smallModel := rfl

/-! ### Partitions -/

/-- The bit fields of every register of an accepted document lie inside the register, and every bit
of the register belongs to exactly one of them. They come of all the bit field tables of the
register's table, none of which was refused. -/
theorem bitFields_partition {root : Table} {m : Model} (h : ofTable root = .ok m) :
    ∀ r ∈ m.allRegisters,
      (∀ f ∈ r.bitFields, 0 ≤ f.range.lsb ∧ f.range.lsb ≤ f.range.msb ∧
        f.range.msb < r.size.bits) ∧
      (∀ bit < r.size.bits, ∃! i : Fin r.bitFields.length,
        (r.bitFields.get i).range.lsb ≤ bit ∧ bit ≤ (r.bitFields.get i).range.msb) ∧
      ∃ path t ts, (path, t) ∈ Registers.tablesBelow (root.get? "register") ∧
        (Register.check m.description path t).outcome = some r ∧
        t.tables "bit_fields" = .valid ts ∧
        (CheckedList.ofTables (BitField.check (Register.inside path r.name)) ts).refused = [] ∧
        List.Forall₂ (fun t f => (BitField.check (Register.inside path r.name) t).outcome = some f)
          ts r.bitFields := by
  intro r hr
  obtain ⟨path, t, ht, haccepts⟩ := exists_accepts_of_ofTable h hr
  obtain ⟨described, hmade⟩ := Register.exists_madeFrom_of_accepts haccepts
  refine ⟨?_, ?_, ?_⟩
  · intro f hf
    exact ⟨Nat.zero_le _, f.range.lsb_le_msb, hmade.msb_lt_size hf⟩
  · intro bit hbit
    have hunique := hmade.existsUnique_contains hbit
    simp only [BitRange.contains_iff] at hunique
    exact hunique
  · obtain ⟨ts, hts, hrefused, hfields⟩ := hmade.bitFields_accepted
    exact ⟨path, t, ts, ht, haccepts.1, hts, hrefused, hfields.imp fun _ _ hf => hf.1⟩

/-- The partition of the register of the small document. -/
theorem bitFields_partition_smallRegister :
    ofTable smallDocument = .ok smallModel ∧
      ∃! i : Fin smallRegister.bitFields.length,
        (smallRegister.bitFields.get i).range.lsb ≤ 5 ∧
          5 ≤ (smallRegister.bitFields.get i).range.msb :=
  ⟨ofTable_smallDocument,
    (bitFields_partition ofTable_smallDocument smallRegister (by decide)).2.1 5 (by decide)⟩

end Model

end RegisterMap
