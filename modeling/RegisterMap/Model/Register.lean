import RegisterMap.BitRange.Basic
import RegisterMap.Model.Vocabulary

/-!
# Registers and descriptions

A model is the content of one description document: what it says of itself, and its registers,
either in one list or in named groups.
-/

namespace RegisterMap

/-! ### Parts of a register -/

/-- A field of a register. A bit field without a name is reserved. -/
structure BitField where
  range : BitRange
  name : Option String
  description : Option String
  deriving Repr, DecidableEq

namespace BitField

/-- The reserved bit field over a range. -/
def reserved (range : BitRange) : BitField := ⟨range, none, none⟩

/-- Whether a bit field is reserved. -/
def isReserved (f : BitField) : Bool := f.name.isNone

end BitField

/-- A name for a value of a bit field. -/
structure EnumValue where
  value : Int
  name : String
  description : Option String
  deriving Repr, DecidableEq

/-- The named values of the bit field over a range. An enumeration is complete if it names every
value that the range can hold. -/
structure RegisterEnum where
  name : String
  range : BitRange
  values : List EnumValue
  description : Option String
  isComplete : Bool
  deriving Repr, DecidableEq

/-! ### Registers -/

/-- A register. Its read and write locations differ only if they come from an address template.
The slot is the ordinal of a parallel hardware slot. -/
structure Register where
  name : String
  access : AccessMode
  size : RegisterSize
  readLocation : Location
  writeLocation : Location
  bitFields : List BitField
  enums : List RegisterEnum
  description : Option String
  slot : Option Int
  deriving Repr, DecidableEq

namespace Register

/-- Whether reading and writing use different locations. -/
def isSplit (r : Register) : Bool := r.readLocation != r.writeLocation

def isReadable (r : Register) : Bool := r.access.isReadable

def isWritable (r : Register) : Bool := r.access.isWritable

def hasReserved (r : Register) : Bool := r.bitFields.any BitField.isReserved

/-- The bit fields with a name, each with its name. -/
def namedFields (r : Register) : List (String × BitField) :=
  r.bitFields.filterMap fun f => f.name.map (·, f)

/-- The enumeration over the range of a bit field. -/
def enumFor? (r : Register) (f : BitField) : Option RegisterEnum :=
  r.enums.find? (·.range == f.range)

end Register

/-! ### Documents -/

/-- What a document says of itself, and its defaults. An address without a size has the width of a
native pointer. -/
structure Description where
  name : String
  version : SpecVersion
  description : Option String
  extension : Option Extension
  defaultSize : Option RegisterSize
  defaultAccess : Option AccessMode
  indexSize : RegisterSize
  addressSize : Option RegisterSize
  deriving Repr, DecidableEq

namespace Description

/-- The word for the width of a native pointer. -/
def nativeSize : String := "native"

def addressSizeText (d : Description) : String := (d.addressSize.map toString).getD nativeSize

end Description

/-- The registers of a document, in document order. -/
inductive Registers where
  | list (registers : List Register)
  | groups (groups : List (String × List Register))
  deriving Repr, DecidableEq

structure Model where
  description : Description
  registers : Option Registers
  deriving Repr, DecidableEq

namespace Model

/-- Whether the registers are in named groups. -/
def isGrouped (m : Model) : Bool := m.registers matches some (.groups _)

/-- The groups of registers. A list of registers is one group without a name. -/
def groups (m : Model) : List (Option String × List Register) :=
  match m.registers with
  | none => []
  | some (.list registers) => [(none, registers)]
  | some (.groups groups) => groups.map fun (name, registers) => (some name, registers)

/-- The registers of all groups. -/
def allRegisters (m : Model) : List Register := m.groups.flatMap (·.2)

end Model

end RegisterMap
