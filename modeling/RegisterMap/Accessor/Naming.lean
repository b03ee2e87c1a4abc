import RegisterMap.Accessor.NameScope
import RegisterMap.Accessor.Preamble
import RegisterMap.Name.Style

/-!
# The names of a generated module

Before any code is written, every group, register and bit field gets the names of its classes and
constants, all from one scope.
-/

namespace RegisterMap.Accessor

/-! ### Bit fields -/

/-- A bit field with its name in the document and its names in the generated code. -/
structure FieldNames where
  name : String
  field : BitField
  enum? : Option RegisterEnum
  method : String
  constant : String
  readClass : String
  writeClass : String
  deriving Repr, DecidableEq

namespace FieldNames

/-- Whether every value of the bit field has a name. -/
def isClosed (f : FieldNames) : Bool := f.enum?.any (·.isComplete)

/-- Whether the bit field is a single bit. -/
def isSingle (f : FieldNames) : Bool := f.field.range.isSingle

/-- The named values of the bit field. -/
def values (f : FieldNames) : List EnumValue := (f.enum?.map (·.values)).getD []

/-- The methods that every class of a register's value has beside those of its bit fields. -/
def valueMethods : List String := ["raw_bits", "set_raw_bits"]

/-- Name a bit field of a register whose accessor class has the given name. -/
def claim (className : String) (r : Register) (name : String) (field : BitField) :
    StateM NameScope FieldNames := do
  let enum? := r.enumFor? field
  let isClosed := enum?.any (·.isComplete)
  let base := className ++ Name.pascal name
  let constant ← NameScope.claim s!"_{Name.constant className}_{Name.constant name}"
  let readClass ← NameScope.claim (if isClosed then base else base ++ "R")
  let writeClass ← NameScope.claim (base ++ "W")
  let method := avoid valueMethods (Name.snake name)
  return { name, field, enum?, method, constant, readClass, writeClass }

/-- The names that a bit field takes from the scope. -/
def claimed (f : FieldNames) : List String := [f.constant, f.readClass, f.writeClass]

end FieldNames

/-! ### Registers -/

/-- A register with its names in the generated code. -/
structure RegisterNames where
  register : Register
  groupClass : String
  accessor : String
  readClass : String
  writeClass : String
  ioClass : String
  fields : List FieldNames
  deriving Repr, DecidableEq

namespace RegisterNames

def claim (groupClass groupWord : String) (register : Register) :
    StateM NameScope RegisterNames := do
  let accessor ← NameScope.claim (groupWord ++ Name.pascal register.name)
  let readClass ← NameScope.claim (accessor ++ "R")
  let writeClass ← NameScope.claim (accessor ++ "W")
  let ioClass ← NameScope.claim (accessor ++ "Io")
  let fields ← register.namedFields.mapM fun (name, field) =>
    FieldNames.claim accessor register name field
  return { register, groupClass, accessor, readClass, writeClass, ioClass, fields }

/-- The names that a register takes from the scope. -/
def claimed (r : RegisterNames) : List String :=
  [r.accessor, r.readClass, r.writeClass, r.ioClass] ++ r.fields.flatMap FieldNames.claimed

/-! ### Capabilities -/

/-- The access of a register that a backend must support, as an expression. -/
def capability (r : RegisterNames) (t : Trait) : String :=
  s!"Capability({r.groupClass}, LocationKind.{kindMember t.kind}, " ++
    s!"Direction.{t.direction.member}, {r.register.size.bits})"

/-- The accesses of a register that a backend must support. -/
def capabilities (r : RegisterNames) : List String :=
  (accesses r.register).map fun (t, _) => r.capability t

end RegisterNames

/-! ### Groups -/

/-- A group of registers with its names in the generated code. -/
structure GroupNames where
  name : Option String
  marker : String
  container : String
  registers : List RegisterNames
  deriving Repr, DecidableEq

namespace GroupNames

/-- Name a group of registers. The registers of a group without a name get no word before their
own names. -/
def claim (name : Option String) (registers : List Register) : StateM NameScope GroupNames := do
  let word := (name.map Name.pascal).getD ""
  let marker ← NameScope.claim (if name.isSome then word ++ "Group" else "DefaultGroup")
  let container ← NameScope.claim (word ++ "Registers")
  let registers ← registers.mapM (RegisterNames.claim marker word)
  return { name, marker, container, registers }

/-- What a group is called in documentation. -/
def title (g : GroupNames) : String :=
  (g.name.map fun name => s!"register group {name}").getD "the register description"

/-- The names that a group takes from the scope. -/
def claimed (g : GroupNames) : List String :=
  [g.marker, g.container] ++ g.registers.flatMap RegisterNames.claimed

/-- The capabilities that the registers of a group require, each once. -/
def capabilities (g : GroupNames) : List String :=
  (g.registers.flatMap RegisterNames.capabilities).eraseDups

end GroupNames

/-- The groups of a model with the names of everything that is generated for them. -/
def nameGroups (m : Model) : List GroupNames :=
  let named := m.groups.mapM fun (name, registers) => GroupNames.claim name registers
  (named.run (.ofList Preamble.names)).1

end RegisterMap.Accessor
