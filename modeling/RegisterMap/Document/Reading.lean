import RegisterMap.Diagnostic.Report
import RegisterMap.Document.Conversion
import RegisterMap.Name.Basic

/-!
# Reading the keys of a table

Reading a key has three outcomes: the key is absent, its value is unusable, or it has a value of
the type that was asked for. Only the second is a problem by itself; a key that must be present
makes the first one a problem too.
-/

namespace RegisterMap

/-- What is wrong with the value of a key. -/
inductive Fault where
  | unexpected (wanted : String) (found : Value)
  | negative (number : Int)
  | aboveMaximum (number maximum : Int)
  | invalidName (text : String)
  | templateNotEnabled (found : Value)
  | addressTooWide (address : Nat) (sizeText : String)
  | conversion (error : ConversionError)
  deriving Repr

def Fault.message : Fault → String
  | unexpected wanted found => s!"expected {wanted}, found: {found.describe}"
  | negative number => s!"negative value '{number}'"
  | aboveMaximum number maximum =>
    s!"value '{number}' is larger than the maximum '{maximum}'"
  | invalidName text =>
    s!"invalid name '{text}', names must start with a letter or underscore and contain only " ++
      "letters, digits and underscores"
  | templateNotEnabled found =>
    s!"expected an integer, found: {found.describe}, address templates require extension " ++
      s!"'{Extension.vga}'"
  | addressTooWide address sizeText =>
    s!"address {Numeral.hex address} does not fit in address size {sizeText}"
  | conversion error => error.message

inductive Reading (α : Type) where
  | absent
  | invalid (fault : Fault)
  | valid (value : α)
  deriving Repr

namespace Reading

/-- The value of a key that has one. -/
def value? {α : Type} : Reading α → Option α
  | valid a => some a
  | _ => none

/-- The value of a key that may be absent. Nothing comes of an unusable one. -/
def optional? {α : Type} : Reading α → Option (Option α)
  | absent => some none
  | invalid _ => none
  | valid a => some (some a)

/-- The value of a key that has one, or else the default if the key is absent. -/
def orDefault? {α : Type} (default : Option α) : Reading α → Option α
  | absent => default
  | invalid _ => none
  | valid a => some a

/-- Go on with the value of a key. -/
def bind {α β : Type} (r : Reading α) (f : α → Reading β) : Reading β :=
  match r with
  | absent => absent
  | invalid fault => invalid fault
  | valid a => f a

def convert {α β : Type} (r : Reading α) (f : α → Except ConversionError β) : Reading β :=
  r.bind fun a =>
    match f a with
    | .ok b => valid b
    | .error e => invalid (.conversion e)

/-! ### Diagnostics -/

def problems {α : Type} (table : TableKind) (path : Path) (key : String) :
    Reading α → List Diagnostic
  | invalid fault => [.invalidValue table path key fault.message]
  | _ => []

/-- The diagnostic for an unusable value or an absent key. -/
def requiredProblems {α : Type} (table : TableKind) (path : Path) (key : String) :
    Reading α → List Diagnostic
  | absent => [.missingKey table path key]
  | invalid fault => [.invalidValue table path key fault.message]
  | valid _ => []

end Reading

namespace Table

/-! ### Values by type -/

/-- The raw value of a key. -/
def value (t : Table) (key : String) : Reading Value :=
  match t.get? key with
  | none => .absent
  | some value => .valid value

/-- The value of a key if a test takes it, or else a fault that tells what was wanted. -/
def typed {α : Type} (t : Table) (key wanted : String) (take : Value → Option α) : Reading α :=
  (t.value key).bind fun value =>
    match take value with
    | some a => .valid a
    | none => .invalid (.unexpected wanted value)

def text (t : Table) (key : String) : Reading String :=
  t.typed key "a string" fun | .text s => some s | _ => none

def boolean (t : Table) (key : String) : Reading Bool :=
  t.typed key "a boolean" fun | .boolean b => some b | _ => none

def integer (t : Table) (key : String) : Reading Int :=
  t.typed key "an integer" fun | .integer n => some n | _ => none

def table (t : Table) (key : String) : Reading Table :=
  t.typed key "a table" fun | .table entries => some entries | _ => none

def array (t : Table) (key : String) : Reading (List Value) :=
  t.typed key "an array" fun | .array items => some items | _ => none

/-- The items of an array as tables, or else the first item that is none. -/
def tablesOfItems : List Value → Except Value (List Table)
  | [] => .ok []
  | .table entries :: items => (tablesOfItems items).map (entries :: ·)
  | item :: _ => .error item

def tables (t : Table) (key : String) : Reading (List Table) :=
  (t.array key).bind fun items =>
    match tablesOfItems items with
    | .ok tables => .valid tables
    | .error item => .invalid (.unexpected "an array of tables" item)

/-! ### Values by content -/

/-- The largest unsigned number of 64 bits. -/
def maxUnsigned : Nat := Bits.ones 64

/-- A whole number from zero up to a maximum. -/
def unsigned (t : Table) (key : String) (maximum : Int) : Reading Int :=
  (t.integer key).bind fun n =>
    if n < 0 then .invalid (.negative n)
    else if maximum < n then .invalid (.aboveMaximum n maximum)
    else .valid n

def name (t : Table) (key : String) : Reading String :=
  (t.text key).bind fun s => if Name.isIdentifier s then .valid s else .invalid (.invalidName s)

def converted {α : Type} (t : Table) (key : String) (f : Value → Except ConversionError α) :
    Reading α :=
  (t.value key).convert f

def convertedText {α : Type} (t : Table) (key : String)
    (f : String → Except ConversionError α) : Reading α :=
  (t.text key).convert f

/-! ### Keys -/

/-- The diagnostics for all keys that are not among those allowed. -/
def unknownKeyProblems (t : Table) (kind : TableKind) (path : Path) (allowed : List String) :
    List Diagnostic :=
  (t.keys.filter (· ∉ allowed)).map (Diagnostic.unknownKey kind path)

end Table

end RegisterMap
