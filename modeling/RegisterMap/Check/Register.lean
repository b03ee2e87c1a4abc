import RegisterMap.Check.Coverage
import RegisterMap.Check.Enumeration

/-!
# Checking registers

A register table is checked in three steps: its own keys, its bit fields and enumerations one by
one, and at last how these fit together. A bit field or an enumeration that is refused does not
keep the others from being checked.
-/

namespace RegisterMap

/-! ### Locations -/

def Location.keys : List String :=
  [LocationKind.absolute.key, LocationKind.relative.key, LocationKind.index.key]

/-- The read and write locations of a register. -/
structure Placement where
  read : Location
  write : Location
  deriving Repr, DecidableEq

namespace Placement

def same (kind : LocationKind) (value : Int) : Placement := ⟨⟨kind, value⟩, ⟨kind, value⟩⟩

def maxAddress (d : Description) : Nat :=
  (d.addressSize.map RegisterSize.maxValue).getD Table.maxUnsigned

/-- The fault of the first address that is too large, if there is one. -/
def addressFault? (d : Description) (addresses : List Nat) : Option Fault :=
  (addresses.find? (maxAddress d < ·)).map (.addressTooWide · d.addressSizeText)

/-- The locations given by an address template. -/
def ofTemplate (d : Description) (kind : LocationKind) (text : String) : Reading Placement :=
  if d.extension = some .vga then
    match Conversion.addresses text with
    | .error e => .invalid (.conversion e)
    | .ok (read, write) =>
      match addressFault? d [read, write] with
      | some fault => .invalid fault
      | none => .valid ⟨⟨kind, read⟩, ⟨kind, write⟩⟩
  else .invalid (.templateNotEnabled (.text text))

/-- The locations given by an address or an address template. -/
def ofAddress (d : Description) (t : Table) (kind : LocationKind) : Reading Placement :=
  match t.get? kind.key with
  | some (.text text) => ofTemplate d kind text
  | _ => (t.unsigned kind.key (maxAddress d)).bind fun n => .valid (same kind n)

/-- The locations given by the key of a location kind. -/
def ofKey (d : Description) (t : Table) : LocationKind → Reading Placement
  | .index =>
    (t.unsigned LocationKind.index.key d.indexSize.maxValue).bind fun n => .valid (same .index n)
  | kind => ofAddress d t kind

/-- The largest slot index. -/
def maxSlot : Nat := 0xffff

/-- The location kinds of the keys that a table has. -/
def kinds (t : Table) : List LocationKind :=
  [LocationKind.absolute, .relative, .index].filter fun kind => t.has kind.key

/-- Whether the index of a table selects a slot, beside an address. -/
def hasSlot (d : Description) (t : Table) : Bool :=
  d.extension == some .vga && t.has LocationKind.index.key && 1 < (kinds t).length

def slot (d : Description) (t : Table) : Reading Int :=
  if hasSlot d t then t.unsigned LocationKind.index.key maxSlot else .absent

/-- The location kinds of the keys that locate the register of a table. -/
def locatingKinds (d : Description) (t : Table) : List LocationKind :=
  if hasSlot d t then (kinds t).filter (· != .index) else kinds t

/-- The problem of a count of location keys other than one. -/
def countProblem (isMissing : Bool) : String :=
  if isMissing then
    s!"register location field '{LocationKind.absolute.key}', '{LocationKind.relative.key}', or " ++
      s!"'{LocationKind.index.key}' is required"
  else "register location field count error: only one location field is supported"

end Placement

/-! ### Refused bit fields -/

namespace BitField

/-- The range of a refused bit field, also where it has the redundant spelling of a single bit. -/
def refusedRange? (t : Table) : Option BitRange :=
  match t.get? "bit" with
  | some (.text text) => (BitRange.read text false).toOption
  | _ => none

/-- The ranges of refused bit fields, if each of them has one. -/
def refusedRanges? (ts : List Table) : Option (List BitRange) := ts.mapM refusedRange?

end BitField

namespace Register

/-! ### How the parts fit together -/

/-- Check how the bit fields and enumerations of a register fit together. -/
def settle (path : Path) (refused : Option (List BitRange)) (r : Register) : Checked Register :=
  let enums := RegisterEnum.settleAll path r.bitFields refused r.enums
  { outcome := { r with enums := enums.outcome }
    report := Report.ofDiagnostics (Coverage.diagnostics path r refused) ++
      Report.ofDiagnostics (r.fieldNameProblems path) ++
      enums.report }

/-! ### The table of a register -/

/-- The keys of the table of a register. -/
def keys : List String :=
  ["name", "description", "access"] ++ Location.keys ++ ["size", "bit_fields", "enum"]

/-- The diagnostics for a property that is either unusable, or absent without a default. -/
def propertyProblems {α : Type} (path : Path) (key what : String) (default : Option α)
    (r : Reading α) : List Diagnostic :=
  match r, default with
  | .absent, none => [.constraint .register path s!"register {what} is undefined"]
  | r, _ => r.problems .register path key

/-- Check the table of a register that is located by the key of one kind. -/
def checkLocated (d : Description) (path : Path) (t : Table) (name : String)
    (kind : LocationKind) : Checked (Option Register) :=
  let description := t.text "description"
  let slot := Placement.slot d t
  let placement := Placement.ofKey d t kind
  let size := t.converted "size" Conversion.size
  let access := t.convertedText "access" Conversion.access
  let fieldTables := t.tables "bit_fields"
  let fields := CheckedList.ofReading (BitField.check path) fieldTables
  let enumTables := t.tables "enum"
  let enums := CheckedList.ofReading (RegisterEnum.check path) enumTables
  let report := Report.ofDiagnostics
      (description.problems .register path "description" ++
        slot.problems .register path LocationKind.index.key ++
        placement.problems .register path kind.key ++
        propertyProblems path "size" "size" d.defaultSize size ++
        propertyProblems path "access" "access mode" d.defaultAccess access ++
        fieldTables.requiredProblems .register path "bit_fields") ++
    fields.report ++
    Report.ofDiagnostics (enumTables.problems .register path "enum") ++
    enums.report
  let register? : Option Register := do
    let description ← description.optional?
    let slot ← slot.optional?
    let placement ← placement.value?
    let size ← size.orDefault? d.defaultSize
    let access ← access.orDefault? d.defaultAccess
    let _ ← fieldTables.value?
    let _ ← enumTables.optional?
    return ⟨name, access, size, placement.read, placement.write, fields.accepted, enums.accepted,
      description, slot⟩
  match register? with
  | none => ⟨none, report⟩
  | some register =>
    let settled := register.settle path (BitField.refusedRanges? fields.refused)
    { outcome := some settled.outcome
      report := report ++ settled.report ++
        [.milestone (.register name register.readLocation register.bitFields.length
          register.enums.length)] }

/-- Check the table of a register with a name. -/
def checkNamed (d : Description) (path : Path) (t : Table) (name : String) :
    Checked (Option Register) :=
  match Placement.locatingKinds d t with
  | [kind] => checkLocated d path t name kind
  | kinds =>
    ⟨none, Report.ofDiagnostics
      ((t.text "description").problems .register path "description" ++
        (Placement.slot d t).problems .register path LocationKind.index.key ++
        [.constraint .register path (Placement.countProblem kinds.isEmpty)])⟩

/-- Check the table of a register under a description. -/
def check (d : Description) (path : Path) (t : Table) : Checked (Option Register) :=
  let name := t.name "name"
  let inner := path.enter (name.value?.map fun name => s!"register '{name}'")
  let report := Report.ofDiagnostics
    (name.requiredProblems .register path "name" ++ t.unknownKeyProblems .register inner keys)
  match name.value? with
  | none => ⟨none, report⟩
  | some name =>
    let named := checkNamed d inner t name
    ⟨named.outcome, report ++ named.report⟩

end Register

end RegisterMap
