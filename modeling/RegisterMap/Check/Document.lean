import RegisterMap.Check.Register

/-!
# Checking documents

A document has a table that describes it, and registers in an array or in a table of named
groups. It is accepted only if nothing at all was reported; registers are checked as soon as the
description is usable.
-/

namespace RegisterMap

/-! ### The description -/

namespace Description

def keys : List String :=
  ["name", "version", "description", "extension", "default_register_size",
   "default_register_access", "index_size", "address_size"]

def check (path : Path) (t : Table) : Checked (Option Description) :=
  let name := t.name "name"
  let inner := path.enter (name.value?.map fun name => s!"register description '{name}'")
  let version := t.convertedText "version" Conversion.version
  let description := t.text "description"
  let extension := t.convertedText "extension" Conversion.extension
  let defaultSize := t.converted "default_register_size" Conversion.size
  let defaultAccess := t.convertedText "default_register_access" Conversion.access
  let indexSize := t.converted "index_size" Conversion.size
  let addressSize := t.converted "address_size" Conversion.addressSize
  let result : Option Description := do
    return {
      name := ← name.value?
      version := ← version.value?
      description := ← description.optional?
      extension := ← extension.optional?
      defaultSize := ← defaultSize.optional?
      defaultAccess := ← defaultAccess.optional?
      indexSize := ← indexSize.orDefault? (some .size64)
      addressSize := ← addressSize.orDefault? (some none) }
  { outcome := result
    report := Report.ofDiagnostics
        (t.unknownKeyProblems .root path keys ++
          name.requiredProblems .root path "name" ++
          version.requiredProblems .root inner "version" ++
          description.problems .root inner "description" ++
          extension.problems .root inner "extension" ++
          defaultSize.problems .root inner "default_register_size" ++
          defaultAccess.problems .root inner "default_register_access" ++
          indexSize.problems .root inner "index_size" ++
          addressSize.problems .root inner "address_size") ++
      result.toList.map fun d => .milestone (.description d.name d.version) }

end Description

/-! ### Registers -/

namespace Registers

/-- Check the items of an array of registers, each by itself. -/
def checkItems (d : Description) (path : Path) : List Value → Checked (List Register)
  | [] => ⟨[], []⟩
  | item :: items =>
    let others := checkItems d path items
    match item with
    | .table t =>
      let here := Register.check d path t
      ⟨here.outcome.toList ++ others.outcome, here.report ++ others.report⟩
    | other =>
      let fault := Fault.unexpected "an array of tables" other
      ⟨others.outcome, .problem (.invalidValue .root path "register" fault.message) ::
        others.report⟩

/-- Check an array of registers. The registers that are accepted must differ in their names. -/
def checkArray (d : Description) (path : Path) (items : List Value) : Checked (List Register) :=
  let checked := checkItems d path items
  ⟨checked.outcome,
    checked.report ++ Report.ofDiagnostics (Register.nameProblems path checked.outcome)⟩

/-- The diagnostics for the name of a group beside the groups of arrays before it. -/
def groupNameProblems (path : Path) (earlier : List String) (name : String) : List Diagnostic :=
  if Name.isIdentifier name then
    (rival? Name.pascal (earlier.filter Name.isIdentifier) name).toList.map fun other =>
      .constraint .root path s!"register groups '{other}' and '{name}' have the same name"
  else [.constraint .root path s!"invalid register group name '{name}'"]

/-- Check the groups of registers, beside the names of the groups of arrays before them. -/
def checkGroups (d : Description) (path : Path) (earlier : List String) :
    Table → Checked (List (String × List Register))
  | [] => ⟨[], []⟩
  | (name, value) :: rest =>
    let inner := path.enter (some s!"register group '{name}'")
    match value with
    | .array items =>
      let here := checkArray d inner items
      let others := checkGroups d path (earlier ++ [name]) rest
      ⟨(name, here.outcome) :: others.outcome,
        Report.ofDiagnostics (groupNameProblems inner earlier name) ++ here.report ++
          others.report⟩
    | other =>
      let others := checkGroups d path earlier rest
      let message := s!"validating register group '{name}' failed: expected an array, " ++
        s!"found {other.describe}"
      ⟨others.outcome, .problem (.invalidValue .root inner "register" message) :: others.report⟩

def check (d : Description) (path : Path) (root : Table) : Checked (Option Registers) :=
  match root.get? "register" with
  | none => ⟨none, []⟩
  | some (.array items) =>
    let checked := checkArray d path items
    ⟨some (.list checked.outcome), checked.report⟩
  | some (.table entries) =>
    let checked := checkGroups d path [] entries
    ⟨some (.groups checked.outcome), checked.report⟩
  | some other =>
    let fault := Fault.unexpected "a table or an array" other
    ⟨none, [.problem (.invalidValue .root path "register" fault.message)]⟩

end Registers

/-! ### Documents -/

namespace Model

def keys : List String := ["register_description", "register"]

/-- Check the description of a document, which the registers need for its defaults. -/
def checkDescription (root : Table) : Checked (Option Description) :=
  let table := root.table "register_description"
  let report := Report.ofDiagnostics
    (root.unknownKeyProblems .root [] keys ++
      table.requiredProblems .root [] "register_description")
  match table.value? with
  | none => ⟨none, report⟩
  | some t =>
    let checked := Description.check [] t
    ⟨checked.outcome, report ++ checked.report⟩

def check (root : Table) : Checked (Option Model) :=
  let description := checkDescription root
  match description.outcome with
  | none => ⟨none, description.report⟩
  | some d =>
    let registers := Registers.check d [] root
    let report := description.report ++ registers.report
    if report.diagnostics.isEmpty then
      let model : Model := ⟨d, registers.outcome⟩
      ⟨some model, report ++ [.milestone (.document d.name model.allRegisters.length)]⟩
    else ⟨none, report⟩

/-- The content of a document, or else all that is wrong with it. -/
def ofTable (root : Table) : Except (List Diagnostic) Model :=
  let checked := check root
  match checked.outcome with
  | some model => .ok model
  | none => .error checked.report.diagnostics

end Model

end RegisterMap
