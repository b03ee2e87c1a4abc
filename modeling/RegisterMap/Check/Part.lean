import RegisterMap.Document.Reading

/-!
# Checking the parts of a register

Enum values, enumerations and bit fields are checked table by table. A table that is not sound is
refused, and its report says why. The parts of a refused entity are checked all the same.
-/

namespace RegisterMap

/-! ### Lists of tables -/

/-- The outcome of checking tables one by one: what was accepted, the tables that were refused, and
the reports of all. -/
structure CheckedList (α : Type) where
  accepted : List α
  refused : List Table
  report : Report
  deriving Repr

namespace CheckedList

def ofTables {α : Type} (check : Table → Checked (Option α)) : List Table → CheckedList α
  | [] => ⟨[], [], []⟩
  | t :: ts =>
    let here := check t
    let others := ofTables check ts
    match here.outcome with
    | some a => ⟨a :: others.accepted, others.refused, here.report ++ others.report⟩
    | none => ⟨others.accepted, t :: others.refused, here.report ++ others.report⟩

/-- Check the tables of a key, if it has any. -/
def ofReading {α : Type} (check : Table → Checked (Option α)) (r : Reading (List Table)) :
    CheckedList α :=
  ofTables check (r.value?.getD [])

end CheckedList

/-! ### Enum values -/

namespace EnumValue

/-- The keys of the table of an enum value. -/
def keys : List String := ["value", "name", "description"]

/-- Check the table of an enum value. -/
def check (path : Path) (t : Table) : Checked (Option EnumValue) :=
  let name := t.name "name"
  let inner := path.enter (name.value?.map fun name => s!"enum value '{name}'")
  let value := t.unsigned "value" Table.maxUnsigned
  let description := t.text "description"
  { outcome := do
      let name ← name.value?
      let value ← value.value?
      let description ← description.optional?
      return ⟨value, name, description⟩
    report := Report.ofDiagnostics
      (name.requiredProblems .enumValue path "name" ++
        t.unknownKeyProblems .enumValue inner keys ++
        value.requiredProblems .enumValue inner "value" ++
        description.problems .enumValue inner "description") }

end EnumValue

/-! ### Enumerations -/

namespace RegisterEnum

/-- The keys of the table of an enumeration. -/
def keys : List String := ["name", "bit", "description", "values"]

/-- Check the table of an enumeration. Enum values that are refused are left out of it. -/
def check (path : Path) (t : Table) : Checked (Option RegisterEnum) :=
  let name := t.name "name"
  let inner := path.enter (name.value?.map fun name => s!"enum '{name}'")
  let range := t.convertedText "bit" Conversion.bitRange
  let description := t.text "description"
  let tables := t.tables "values"
  let values := CheckedList.ofReading (EnumValue.check inner) tables
  { outcome := do
      let name ← name.value?
      let range ← range.value?
      let description ← description.optional?
      let _ ← tables.value?
      return ⟨name, range, values.accepted, description, false⟩
    report := Report.ofDiagnostics
      (name.requiredProblems .enumeration path "name" ++
        t.unknownKeyProblems .enumeration inner keys ++
        range.requiredProblems .enumeration inner "bit" ++
        description.problems .enumeration inner "description" ++
        tables.requiredProblems .enumeration inner "values") ++
      values.report }

end RegisterEnum

/-! ### Bit fields -/

namespace BitField

/-- The keys of the table of a bit field. -/
def keys : List String := ["bit", "name", "description", "reserved"]

/-- The keys that a reserved bit field may not have. -/
def keysOfNamed : List String := ["name", "description"]

/-- The diagnostics for the keys of a table that its reserved bit field may not have. -/
def reservedProblems (path : Path) (t : Table) : List Diagnostic :=
  (keysOfNamed.filter t.has).map fun key =>
    .constraint .bitField path s!"key '{key}' is not allowed when bit field is marked as reserved"

/-- Check that the keys of a table, all of them usable, fit together. -/
def checkFit (path : Path) (t : Table) (range : BitRange) (isReserved : Bool)
    (name description : Option String) : Checked (Option BitField) :=
  if isReserved then
    let problems := reservedProblems path t
    ⟨if problems.isEmpty then some (reserved range) else none, Report.ofDiagnostics problems⟩
  else
    match name with
    | some name => ⟨some ⟨range, some name, description⟩, []⟩
    | none => ⟨none, Report.ofDiagnostics [.missingKey .bitField path "name"]⟩

/-- Check the table of a bit field. -/
def check (path : Path) (t : Table) : Checked (Option BitField) :=
  let range := t.convertedText "bit" Conversion.bitRange
  let inner := path.enter (range.value?.map fun range => s!"bit field with range '{range}'")
  let isReserved := t.boolean "reserved"
  let name := t.name "name"
  let description := t.text "description"
  let report := Report.ofDiagnostics
    (range.requiredProblems .bitField path "bit" ++
      t.unknownKeyProblems .bitField inner keys ++
      isReserved.problems .bitField inner "reserved" ++
      name.problems .bitField inner "name" ++
      description.problems .bitField inner "description")
  match range.value?, isReserved.optional?, name.optional?, description.optional? with
  | some range, some isReserved, some name, some description =>
    let fit := checkFit inner t range (isReserved.getD false) name description
    ⟨fit.outcome, report ++ fit.report⟩
  | _, _, _, _ => ⟨none, report⟩

end BitField

end RegisterMap
