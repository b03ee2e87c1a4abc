import RegisterMap.Procedure.Basic

/-!
# Reading keys step by step

The value of a key is read by a chain of tests. The first one that fails records what is wrong and
makes the table fail. Nothing is returned then, nor for an absent key.
-/

namespace RegisterMap.Procedure

variable {α : Type}

/-! ### Values by type -/

/-- The raw value of a key. -/
def value (key : String) : Procedure Inspection (Option Value) := return (← get).table.get? key

/-- Nothing, for a value that is unusable. -/
def invalid (key : String) (fault : Fault) : Procedure Inspection (Option α) := do
  modify (·.invalidValue key fault.message)
  return none

/-- The value of a key if a test takes it. -/
def typed (key wanted : String) (take : Value → Option α) : Procedure Inspection (Option α) :=
  andThen (value key) fun value =>
    match take value with
    | some a => return some a
    | none => invalid key (.unexpected wanted value)

def text (key : String) : Procedure Inspection (Option String) :=
  typed key "a string" fun | .text s => some s | _ => none

def boolean (key : String) : Procedure Inspection (Option Bool) :=
  typed key "a boolean" fun | .boolean b => some b | _ => none

def integer (key : String) : Procedure Inspection (Option Int) :=
  typed key "an integer" fun | .integer n => some n | _ => none

def table (key : String) : Procedure Inspection (Option Table) :=
  typed key "a table" fun | .table entries => some entries | _ => none

def array (key : String) : Procedure Inspection (Option (List Value)) :=
  typed key "an array" fun | .array items => some items | _ => none

/-- The items of an array, up to the first that is no table. -/
def tablesOfItems (key : String) : List Value → Procedure Inspection (Option (List Table))
  | [] => return some []
  | .table entries :: items => return (← tablesOfItems key items).map (entries :: ·)
  | item :: _ => invalid key (.unexpected "an array of tables" item)

def tables (key : String) : Procedure Inspection (Option (List Table)) :=
  andThen (array key) (tablesOfItems key)

/-! ### Values by content -/

/-- A whole number from zero up to a maximum. -/
def unsigned (key : String) (maximum : Int) : Procedure Inspection (Option Int) :=
  andThen (integer key) fun n =>
    if n < 0 then invalid key (.negative n)
    else if maximum < n then invalid key (.aboveMaximum n maximum)
    else return some n

def name (key : String) : Procedure Inspection (Option String) :=
  andThen (text key) fun s =>
    if Name.isIdentifier s then return some s else invalid key (.invalidName s)

/-- What a conversion makes of a value, unless it cannot be used. -/
def conversion (key : String) (result : Except ConversionError α) :
    Procedure Inspection (Option α) :=
  orElseUsable (some <$> usable ConversionError.message result) fun message => do
    modify (·.invalidValue key message)
    return none

def converted (key : String) (f : Value → Except ConversionError α) :
    Procedure Inspection (Option α) :=
  andThen (value key) fun value => conversion key (f value)

def convertedText (key : String) (f : String → Except ConversionError α) :
    Procedure Inspection (Option α) :=
  andThen (text key) fun s => conversion key (f s)

/-! ### Keys -/

/-- The value of a key that must be there. -/
def required (key : String) (read : String → Procedure Inspection (Option α)) :
    Procedure Inspection (Option α) := do
  let value ← read key
  modify (·.require key value.isSome)
  return value

/-- Record the keys that are not among those allowed. -/
def checkUnknownKeys (allowed : List String) : Procedure Inspection Unit :=
  modify (·.checkUnknownKeys allowed)

end RegisterMap.Procedure
