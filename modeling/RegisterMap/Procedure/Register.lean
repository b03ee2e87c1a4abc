import RegisterMap.Check.Register
import RegisterMap.Procedure.Fit
import RegisterMap.Procedure.Reading

/-!
# Registers step by step

The table of a register and the tables of its parts are inspected key by key. An inspection that
has failed refuses its table; whoever asked for it goes on with the next table.
-/

namespace RegisterMap.Procedure

variable {α : Type}

/-! ### Lists of tables -/

/-- Check tables one by one. What is returned are the accepted parts and the refused tables. -/
def children (check : Table → Procedure Context α) :
    List Table → Procedure Context (List α × List Table)
  | [] => return ([], [])
  | t :: ts => do
    let child? ← unlessRefused (check t)
    let (accepted, refused) ← children check ts
    match child? with
    | some child => return (child :: accepted, refused)
    | none => return (accepted, t :: refused)

/-- The ranges of refused bit fields, unless one of them has none. -/
def refusedRanges : List Table → Procedure Context (Option (List BitRange))
  | [] => return some []
  | t :: ts =>
    match t.get? "bit" with
    | some (.text text) => do
      let range? ← orElseUsable
        (some <$> usable BitRange.Error.message (BitRange.read text false)) fun _ => return none
      match range? with
      | some range => return (← refusedRanges ts).map (range :: ·)
      | none => return none
    | _ => return none

/-! ### Enum values -/

/-- Check the table of an enum value. -/
def checkEnumValue (t : Table) : Procedure Context EnumValue := inspect t .enumValue do
  let name ← required "name" name
  inside (name.map fun name => s!"enum value '{name}'") do
    checkUnknownKeys EnumValue.keys
    let value ← required "value" (unsigned · Table.maxUnsigned)
    let description ← text "description"
    refuseFailed
    return ⟨← granted value, ← granted name, description⟩

/-! ### Enumerations -/

def checkEnum (t : Table) : Procedure Context RegisterEnum := inspect t .enumeration do
  let name ← required "name" name
  inside (name.map fun name => s!"enum '{name}'") do
    checkUnknownKeys RegisterEnum.keys
    let range ← required "bit" (convertedText · Conversion.bitRange)
    let description ← text "description"
    let tables ← required "values" tables
    let (values, _) ← aside (children checkEnumValue (tables.getD []))
    refuseFailed
    return ⟨← granted name, ← granted range, values, description, false⟩

/-! ### Bit fields -/

/-- Fail for each of some keys that the table of a reserved bit field has. -/
def failForKeys : List String → Procedure Inspection Unit
  | [] => return ()
  | key :: keys => do
    if (← get).table.has key then
      modify fun i => (i.constraint
        s!"key '{key}' is not allowed when bit field is marked as reserved").fail
    failForKeys keys

/-- What comes of the usable keys of a bit field. -/
def fitBitField (range : BitRange) (isReserved : Bool) (name description : Option String) :
    Procedure Inspection BitField :=
  if isReserved then do
    failForKeys BitField.keysOfNamed
    refuseFailed
    return .reserved range
  else
    match name with
    | some name => return ⟨range, some name, description⟩
    | none => do
      modify (·.missingKey "name")
      refuseFailed
      return ⟨range, none, description⟩

/-- Check the table of a bit field. -/
def checkBitField (t : Table) : Procedure Context BitField := inspect t .bitField do
  let range ← required "bit" (convertedText · Conversion.bitRange)
  inside (range.map fun range => s!"bit field with range '{range}'") do
    checkUnknownKeys BitField.keys
    let isReserved ← boolean "reserved"
    let name ← name "name"
    let description ← text "description"
    refuseFailed
    fitBitField (← granted range) (isReserved.getD false) name description

/-! ### Locations -/

/-- The locations given by an address template. -/
def placeTemplate (d : Description) (kind : LocationKind) (text : String) :
    Procedure Inspection (Option Placement) :=
  if d.extension = some .vga then
    andThen (convertedText kind.key Conversion.addresses) fun (read, write) =>
      match ([read, write] : List Nat).find? (Placement.maxAddress d < ·) with
      | some address => invalid kind.key (.addressTooWide address d.addressSizeText)
      | none => return some ⟨⟨kind, read⟩, ⟨kind, write⟩⟩
  else invalid kind.key (.templateNotEnabled (.text text))

def placeNumber (kind : LocationKind) (maximum : Int) :
    Procedure Inspection (Option Placement) :=
  andThen (unsigned kind.key maximum) fun n => return some (.same kind n)

/-- The locations given by an address or an address template. -/
def placeAddress (d : Description) (kind : LocationKind) :
    Procedure Inspection (Option Placement) := do
  match ← value kind.key with
  | some (.text text) => placeTemplate d kind text
  | _ => placeNumber kind (Placement.maxAddress d)

/-- The slot index of a register and the location kinds of the other keys that locate it. An index
beside an address selects a slot. -/
def separateSlot (d : Description) : Procedure Inspection (Option Int × List LocationKind) := do
  let present := Placement.kinds (← get).table
  if d.extension = some .vga ∧ LocationKind.index ∈ present ∧ 1 < present.length then
    let slot ← unsigned LocationKind.index.key Placement.maxSlot
    return (slot, present.erase .index)
  else return (none, present)

/-- The locations of a register, given by the key of the one kind that is present. -/
def place (d : Description) (present : List LocationKind) :
    Procedure Inspection (Option Placement) :=
  if present.isEmpty then reject (Placement.countProblem true)
  else if 1 < present.length then reject (Placement.countProblem false)
  else do
    let kind ← item present 0
    if kind = .index then placeNumber .index d.indexSize.maxValue else placeAddress d kind

/-! ### Registers -/

/-- The value of a key, or else the default if the key is absent. -/
def property (key what : String) (read : String → Procedure Inspection (Option α))
    (default : Option α) : Procedure Inspection (Option α) := do
  let value ← read key
  if value.isSome || (← get).table.has key then return value
  else
    if default.isNone then
      modify fun i => (i.constraint s!"register {what} is undefined").fail
    return default

/-- Check the table of a register with a name. -/
def checkNamed (d : Description) (name : String) : Procedure Inspection Register := do
  let description ← text "description"
  let (slot, present) ← separateSlot d
  let placement ← place d present
  let size ← property "size" "size" (converted · Conversion.size) d.defaultSize
  let access ← property "access" "access mode" (convertedText · Conversion.access) d.defaultAccess
  let fieldTables ← required "bit_fields" tables
  let (bitFields, refused) ← aside (children checkBitField (fieldTables.getD []))
  let enumTables ← tables "enum"
  let (enums, _) ← aside (children checkEnum (enumTables.getD []))
  refuseFailed
  let size ← granted size
  let access ← granted access
  let placement ← granted placement
  aside do
    settle ⟨name, access, size, placement.read, placement.write, bitFields, enums, description,
      slot⟩ (← refusedRanges refused)

/-- Check the table of a register under a description. -/
def checkRegister (d : Description) (t : Table) : Procedure Context Register :=
  inspect t .register do
    let name ← required "name" name
    inside (name.map fun name => s!"register '{name}'") do
      checkUnknownKeys Register.keys
      refuseFailed
      checkNamed d (← granted name)

end RegisterMap.Procedure
