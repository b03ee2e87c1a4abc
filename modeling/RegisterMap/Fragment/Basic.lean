import RegisterMap.BitRange.Text
import RegisterMap.Document.Value
import RegisterMap.Model.AddressTemplate
import RegisterMap.Model.Register
import RegisterMap.Toml.Quoted

/-!
# Fragments

A fragment is the part of a document that describes one register. It denotes the table of the
register, and it has a text, which can be put at the end of a document.
-/

namespace RegisterMap

/-! ### Literals -/

/-- A scalar together with the way it is written. -/
inductive Literal where
  | text (value : String)
  | decimal (value : Int)
  | hexadecimal (value : Int)
  | boolean (value : Bool)
  deriving Repr, DecidableEq

namespace Literal

def value : Literal → Value
  | text s => .text s
  | decimal n => .integer n
  | hexadecimal n => .integer n
  | boolean b => .boolean b

def code : Literal → String
  | text s => Toml.quoted s
  | decimal n => toString n
  | hexadecimal n => Numeral.hex n
  | boolean b => toString b

end Literal

/-- The entries of a table of scalars. -/
abbrev Entries := List (String × Literal)

namespace Entries

def table (entries : Entries) : Table := entries.map fun (key, literal) => (key, literal.value)

def code (entries : Entries) : List String :=
  entries.map fun (key, literal) => s!"{key} = {literal.code}"

/-- Entries as an item of an array, on a line of its own. -/
def itemCode (entries : Entries) : String :=
  "    \x7b " ++ String.intercalate ", " entries.code ++ " \x7d,"

end Entries

/-! ### Fragments -/

structure EnumFragment where
  entries : Entries
  values : List Entries
  deriving Repr, DecidableEq

namespace EnumFragment

/-- The table that the description of an enumeration denotes. -/
def table (f : EnumFragment) : Table :=
  f.entries.table ++ [("values", .array (f.values.map fun v => .table v.table))]

/-- The lines of the description of an enumeration, below the header of its register. -/
def lines (f : EnumFragment) (header : String) : List String :=
  ["", s!"[[{header}.enum]]"] ++ f.entries.code ++ ["values = ["] ++
    f.values.map Entries.itemCode ++ ["]"]

end EnumFragment

structure Fragment where
  entries : Entries
  bitFields : List Entries
  enums : List EnumFragment
  deriving Repr, DecidableEq

namespace Fragment

def table (f : Fragment) : Table :=
  f.entries.table ++ [("bit_fields", .array (f.bitFields.map fun b => .table b.table))] ++
    if f.enums.isEmpty then [] else [("enum", .array (f.enums.map fun e => .table e.table))]

/-- The text of a fragment under the header of its register, after an empty line. -/
def text (f : Fragment) (header : String) : String :=
  let lines := ["", s!"[[{header}]]"] ++ f.entries.code ++ ["bit_fields = ["] ++
    f.bitFields.map Entries.itemCode ++ ["]"] ++ f.enums.flatMap (·.lines header)
  String.intercalate "\n" lines ++ "\n"

/-! ### Fragments of registers -/

/-- The entry for a description, which is left out if it is empty. -/
def descriptionEntry (description : Option String) : Entries :=
  match description with
  | some text => if text.isEmpty then [] else [("description", .text text)]
  | none => []

def ofBitField (f : BitField) : Entries :=
  ("bit", .text f.range.text) ::
    match f.name with
    | none => [("reserved", .boolean true)]
    | some name => ("name", .text name) :: descriptionEntry f.description

def ofEnumValue (v : EnumValue) : Entries :=
  [("value", .decimal v.value), ("name", .text v.name)] ++ descriptionEntry v.description

def ofEnum (e : RegisterEnum) : EnumFragment where
  entries := [("name", .text e.name)] ++ descriptionEntry e.description ++
    [("bit", .text e.range.text)]
  values := e.values.map ofEnumValue

/-- The entry for the locations of a register. -/
def locationEntry (r : Register) : Except AddressTemplate.Error (String × Literal) :=
  let read := r.readLocation
  if r.isSplit then do
    let template ← AddressTemplate.ofAddresses read.value r.writeLocation.value
    return (read.kind.key, .text template)
  else if read.kind = .index then .ok (read.kind.key, .decimal read.value)
  else .ok (read.kind.key, .hexadecimal read.value)

/-- The description of a register, without what it has by default. -/
def ofRegister (d : Description) (r : Register) : Except AddressTemplate.Error Fragment := do
  let location ← locationEntry r
  let slot := r.slot.toList.map fun slot => ("index", Literal.decimal slot)
  let access : Entries :=
    if some r.access = d.defaultAccess then [] else [("access", .text r.access.text)]
  let size : Entries :=
    if some r.size = d.defaultSize then [] else [("size", .decimal r.size.bits)]
  return {
    entries := [("name", .text r.name)] ++ descriptionEntry r.description ++ [location] ++ slot ++
      access ++ size
    bitFields := r.bitFields.map ofBitField
    enums := r.enums.map ofEnum }

end Fragment

end RegisterMap
