import RegisterMap.Check.Enumeration
import RegisterMap.Check.Coverage
import RegisterMap.Procedure.Basic

/-!
# Fitting the parts of a register together step by step

Bits are claimed one after another, in a list with a place for each bit of the register. Names and
numbers are entered into dictionaries, where the first to come stays.
-/

namespace RegisterMap.Procedure

/-! ### Owners of bits -/

/-- Who has claimed a bit: the bit field at a position, or a bit field that was refused. -/
inductive Owner where
  | field (position : Nat)
  | refused
  deriving Repr, DecidableEq

/-- The owners of the bits of a register, as far as they are claimed. -/
abbrev Owners := List (Option Owner)

/-- Claim the bits of a range for the bit field at a position, up to the first bit that the register
does not have. The owners in `reported` have been told of already. -/
def claimBits (fields : List BitField) (size position : Nat) (range : BitRange) :
    List Nat → Owners → List Owner → Procedure Context Owners
  | [], owners, _ => return owners
  | bit :: bits, owners, reported =>
    if size ≤ bit then do
      recordConstraint .register (Coverage.Problem.outside range size).message
      return owners
    else do
      match ← item owners bit with
      | none =>
        claimBits fields size position range bits (owners.set bit (some (.field position))) reported
      | some owner =>
        if owner ∈ reported then claimBits fields size position range bits owners reported
        else
          match owner with
          | .field first =>
            let other ← item fields first
            recordConstraint .register (Coverage.Problem.overlap range other.range).message
            claimBits fields size position range bits owners (owner :: reported)
          -- No bit has been claimed for a refused bit field yet.
          | .refused => throw .broken

/-- Claim the bits of bit fields, where `position` is that of the first of them. -/
def claimFields (fields : List BitField) (size : Nat) :
    Nat → List BitField → Owners → Procedure Context Owners
  | _, [], owners => return owners
  | position, f :: rest, owners => do
    let owners ← claimBits fields size position f.range f.range.bits owners []
    claimFields fields size (position + 1) rest owners

/-- Claim the bits of the range of a refused bit field that no one has claimed. -/
def claimRefusedBits (size : Nat) : List Nat → Owners → Procedure Context Owners
  | [], owners => return owners
  | bit :: bits, owners =>
    if bit < size then do
      match ← item owners bit with
      | none => claimRefusedBits size bits (owners.set bit (some .refused))
      | some _ => claimRefusedBits size bits owners
    else claimRefusedBits size bits owners

/-- Claim the bits of the ranges of refused bit fields. -/
def claimRefused (size : Nat) : List BitRange → Owners → Procedure Context Owners
  | [], owners => return owners
  | range :: ranges, owners => do
    let owners ← claimRefusedBits size range.bits owners
    claimRefused size ranges owners

/-! ### Bits without an owner -/

def rangeOfBits (msb lsb : Int) : Procedure Context BitRange :=
  usable BitRange.Error.message (BitRange.ofBits msb lsb)

/-- The runs of bits without an owner from a bit on, where `lsb` is the start of a run below it. -/
def undefinedRanges : Nat → Owners → Option Nat → Procedure Context (List BitRange)
  | _, [], none => return []
  | bit, [], some lsb => return [← rangeOfBits ((bit : Int) - 1) lsb]
  | bit, none :: owners, lsb => undefinedRanges (bit + 1) owners (some (lsb.getD bit))
  | bit, some _ :: owners, none => undefinedRanges (bit + 1) owners none
  | bit, some _ :: owners, some lsb => do
    let run ← rangeOfBits ((bit : Int) - 1) lsb
    return run :: (← undefinedRanges (bit + 1) owners none)

/-- Record the runs of bits without an owner, if there are any. -/
def recordUndefined (owners : Owners) : Procedure Context Unit := do
  match ← undefinedRanges 0 owners none with
  | [] => return ()
  | undefined => recordConstraint .register (Coverage.Problem.undefined undefined).message

/-- Check that the bit fields of a register partition its bits. -/
def checkBitFields (r : Register) (refused : Option (List BitRange)) : Procedure Context Unit := do
  let owners ← claimFields r.bitFields r.size.bits 0 r.bitFields (.replicate r.size.bits none)
  match refused with
  | none => return ()
  | some ranges =>
    let owners ← claimRefused r.size.bits ranges owners
    recordUndefined owners

/-! ### Names -/

/-- What has been entered under a key, the last entry first. -/
abbrev Dictionary (κ : Type) := List (κ × String)

/-- Enter a name under a key. If there is one already, it stays, and the clash is recorded. -/
def enter {κ : Type} [BEq κ] (table : TableKind) (key : κ) (name : String)
    (message : String → String) (seen : Dictionary κ) : Procedure Context (Dictionary κ) :=
  match seen.lookup key with
  | some other => do
    recordConstraint table (message other)
    return seen
  | none => return (key, name) :: seen

/-- Check that the names of items differ in snake case. -/
def checkNames {α : Type} (name : α → Procedure Context String)
    (message : String → String → String) : List α → Dictionary String → Procedure Context Unit
  | [], _ => return ()
  | a :: rest, seen => do
    let name' ← name a
    let seen ← enter .register (Name.snake name') name' (message · name') seen
    checkNames name message rest seen

/-- Check that the names of bit fields, which must have one, differ in snake case. -/
def checkFieldNames (fields : List BitField) : Procedure Context Unit :=
  checkNames (granted ·.name) (fun other name =>
    s!"bit fields '{other}' and '{name}' have the same name") fields []

/-- Check that the names of registers differ in snake case. -/
def checkRegisterNames (registers : List Register) : Procedure Context Unit :=
  checkNames (pure ·.name) (fun other name =>
    s!"registers '{other}' and '{name}' have the same name") registers []

/-! ### Enumerations -/

/-- Record that the number of an enum value does not fit, if it is too large. -/
def checkBound (e : RegisterEnum) (maxValue : Nat) (v : EnumValue) : Procedure Context Unit :=
  if (maxValue : Int) < v.value then
    recordConstraint .enumeration
      (s!"enum value '{v.name}' with value '{v.value}' for enum '{e.name}' is larger than enum " ++
        s!"max value '{maxValue}'")
  else return ()

/-- Check the values of an enumeration, with names entered under numbers and under constants. -/
def checkValues (e : RegisterEnum) (maxValue : Nat) :
    List EnumValue → Dictionary Int → Dictionary String → Procedure Context Unit
  | [], _, _ => return ()
  | v :: rest, numbers, names => do
    checkBound e maxValue v
    let numbers ← enter .enumeration v.value v.name
      (fun other => s!"enum values '{v.name}' and '{other}' have the same value '{v.value}'") numbers
    let names ← enter .enumeration (Name.constant v.name) v.name
      (fun other => s!"enum values '{v.name}' and '{other}' have the same name") names
    checkValues e maxValue rest numbers names

/-- Match an enumeration to the bit field that it describes, and check its values. The names of the
enumerations that have been matched are in `claimed`, under their ranges. -/
def matchEnum (fields : List BitField) (refused : Option (List BitRange)) (e : RegisterEnum)
    (claimed : Dictionary BitRange) :
    Procedure Context (RegisterEnum × Dictionary BitRange) :=
  let fields := fields.filter (·.range == e.range)
  if fields.isEmpty then
    match refused with
    | none => return (e, claimed)
    | some ranges =>
      if e.range ∈ ranges then return (e, claimed)
      else do
        recordConstraint .enumeration s!"no matching bit field range found for enum '{e.name}'"
        return (e, claimed)
  else if fields.any BitField.isReserved then do
    recordConstraint .enumeration s!"enum '{e.name}' bit range is reserved"
    return (e, claimed)
  else
    match claimed.lookup e.range with
    | some other => do
      recordConstraint .enumeration
        s!"same bit range '{e.range}' is defined for enums '{e.name}' and '{other}'"
      return (e, claimed)
    | none => do
      let claimed := (e.range, e.name) :: claimed
      let maxValue? ← orElseUsable (some <$> usable BitRange.Error.message e.range.maxValue)
        fun message => do
          recordConstraint .enumeration s!"enum '{e.name}' {message}"
          return none
      match maxValue? with
      | none => return (e, claimed)
      | some maxValue =>
        checkValues e maxValue e.values [] []
        return ({ e with isComplete := e.values.length == maxValue + 1 }, claimed)

/-- Check the enumerations of a register in order. -/
def matchEnums (fields : List BitField) (refused : Option (List BitRange)) :
    List RegisterEnum → Dictionary BitRange → Procedure Context (List RegisterEnum)
  | [], _ => return []
  | e :: rest, claimed => do
    let (e, claimed) ← within (some s!"enum '{e.name}'") (matchEnum fields refused e claimed)
    return e :: (← matchEnums fields refused rest claimed)

/-! ### Registers -/

/-- Check how the bit fields and enumerations of a register fit together. -/
def settle (r : Register) (refused : Option (List BitRange)) : Procedure Context Register := do
  checkBitFields r refused
  checkFieldNames (r.bitFields.filter (!·.isReserved))
  let enums ← matchEnums r.bitFields refused r.enums []
  return { r with enums }

end RegisterMap.Procedure
