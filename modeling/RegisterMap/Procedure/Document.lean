import RegisterMap.Check.Document
import RegisterMap.Procedure.Register

/-!
# Documents step by step

The description is inspected first. If it is unusable, then the document fails at once; otherwise it
fails at the end, if anything at all has been recorded.
-/

namespace RegisterMap.Procedure

/-! ### The description -/

/-- Check the description table. Nothing is returned if it has failed. -/
def checkDescription (t : Table) : Procedure Context (Option Description) := inspect t .root do
  checkUnknownKeys Description.keys
  let name ← required "name" name
  inside (name.map fun name => s!"register description '{name}'") do
    let version ← required "version" (convertedText · Conversion.version)
    let description ← text "description"
    let extension ← convertedText "extension" Conversion.extension
    let defaultSize ← converted "default_register_size" Conversion.size
    let defaultAccess ← convertedText "default_register_access" Conversion.access
    let indexSize ← converted "index_size" Conversion.size
    let addressSize ← converted "address_size" Conversion.addressSize
    if (← get).hasFailed then return none
    else
      let name ← granted name
      let version ← granted version
      return some ⟨name, version, description, extension, defaultSize, defaultAccess,
        indexSize.getD .size64, addressSize.getD none⟩

/-! ### Registers -/

/-- Check the items of an array of registers, keeping those that are accepted. -/
def checkItems (d : Description) : List Value → Procedure Context (List Register)
  | [] => return []
  | item :: items =>
    match item with
    | .table t => do
      let r? ← unlessRefused (checkRegister d t)
      return r?.toList ++ (← checkItems d items)
    | other => do
      recordInvalid .root "register" (Fault.unexpected "an array of tables" other).message
      checkItems d items

def checkArray (d : Description) (items : List Value) : Procedure Context (List Register) := do
  let registers ← checkItems d items
  checkRegisterNames registers
  return registers

/-- Enter the name of a group, unless it is no name. -/
def enterGroupName (name : String) (seen : Dictionary String) :
    Procedure Context (Dictionary String) :=
  if Name.isIdentifier name then
    enter .root (Name.pascal name) name
      (fun other => s!"register groups '{other}' and '{name}' have the same name") seen
  else do
    recordConstraint .root s!"invalid register group name '{name}'"
    return seen

/-- Check a group of registers. Nothing is kept of one that is no array. -/
def checkGroup (d : Description) (name : String) (value : Value)
    (seen : Dictionary String) :
    Procedure Context (Option (String × List Register) × Dictionary String) :=
  match value with
  | .array items => do
    let seen ← enterGroupName name seen
    let registers ← checkArray d items
    return (some (name, registers), seen)
  | other => do
    recordInvalid .root "register" (s!"validating register group '{name}' failed: expected an array, " ++
      s!"found {other.describe}")
    return (none, seen)

/-- Check the groups of registers in order. -/
def checkGroups (d : Description) :
    Table → Dictionary String → Procedure Context (List (String × List Register))
  | [], _ => return []
  | (name, value) :: rest, seen => do
    let (group?, seen) ← within (some s!"register group '{name}'") (checkGroup d name value seen)
    return group?.toList ++ (← checkGroups d rest seen)

/-! ### Documents -/

def failDocument {α : Type} : Procedure Inspection α := do
  throw (.failed (← get).context.diagnostics)

/-- Check the registers of the document under inspection. -/
def checkRegisters (d : Description) : Procedure Inspection (Option Registers) := do
  match ← value "register" with
  | some (.array items) => return some (.list (← aside (checkArray d items)))
  | some (.table entries) => return some (.groups (← aside (checkGroups d entries [])))
  | some other => invalid "register" (.unexpected "a table or an array" other)
  | none => return none

/-- Check the registers of a document that has been described. It fails if anything at all has been
recorded. -/
def checkDescribed (d : Description) : Procedure Inspection Model := do
  let registers ← checkRegisters d
  if (← get).context.hasErrors then failDocument else return ⟨d, registers⟩

def checkDocument (root : Table) : Procedure Context Model := inspect root .root do
  checkUnknownKeys Model.keys
  let table ← required "register_description" table
  let description ← match table with
    | some t => aside (checkDescription t)
    | none => pure none
  match description with
  | none => failDocument
  | some d => checkDescribed d

/-- The content of a document, or why there is none, with the context at the end. -/
def result (root : Table) : EStateM.Result Stop Context Model := (checkDocument root).run .empty

end RegisterMap.Procedure
