import RegisterMap.BitRange.Text
import RegisterMap.Check.Distinct

/-!
# The enumerations of a register

An enumeration names the values of one bit field. Its range must be that of a bit field that is
not reserved, and no other enumeration may have the same range. Its values must fit the range, and
neither values nor names may repeat. The enumeration is complete if it names every value.
-/

namespace RegisterMap.RegisterEnum

/-! ### Values -/

/-- The problems of an enum value beside the values before it, all with their names as
constants. -/
def valueProblems (e : RegisterEnum) (maxValue : Nat) (earlier : List (String × EnumValue))
    (named : String × EnumValue) : List String :=
  let v := named.2
  (if (maxValue : Int) < v.value then
    [s!"enum value '{v.name}' with value '{v.value}' for enum '{e.name}' is larger than enum " ++
      s!"max value '{maxValue}'"]
  else []) ++
  ((rival? (·.2.value) earlier named).toList.map fun (_, other) =>
    s!"enum values '{v.name}' and '{other.name}' have the same value '{v.value}'") ++
  (rival? Prod.fst earlier named).toList.map fun (_, other) =>
    s!"enum values '{v.name}' and '{other.name}' have the same name"

/-- The problems of the values of an enumeration. -/
def valuesProblems (e : RegisterEnum) (maxValue : Nat) : List String :=
  inTurn (e.valueProblems maxValue) [] (keyed (Name.constant ·.name) e.values)

/-! ### Matching -/

/-- What becomes of an enumeration beside the bit fields and the other enumerations. -/
inductive Match where
  /-- No bit field has the range, but one that was refused may have had it. -/
  | unresolved
  /-- The enumeration describes nothing. -/
  | refused (problem : String)
  /-- The enumeration describes a bit field with the given largest value. -/
  | accepted (maxValue : Nat)
  deriving Repr, DecidableEq

/-- Match an enumeration to the bit field that it describes. -/
def matchField (fields : List BitField) (refused : Option (List BitRange))
    (earlier : List RegisterEnum) (e : RegisterEnum) : Match :=
  let fields := fields.filter (·.range == e.range)
  if fields.isEmpty then
    if refused.all (e.range ∈ ·) then .unresolved
    else .refused s!"no matching bit field range found for enum '{e.name}'"
  else if fields.any BitField.isReserved then
    .refused s!"enum '{e.name}' bit range is reserved"
  else
    match earlier.find? (·.range == e.range) with
    | some other =>
      .refused s!"same bit range '{e.range}' is defined for enums '{e.name}' and '{other.name}'"
    | none =>
      match e.range.maxValue with
      | .ok maxValue => .accepted maxValue
      | .error error => .refused s!"enum '{e.name}' {error.message}"

/-- Check an enumeration beside the bit fields and the enumerations before it. -/
def settle (path : Path) (fields : List BitField) (refused : Option (List BitRange))
    (earlier : List RegisterEnum) (e : RegisterEnum) : Checked RegisterEnum :=
  let inner := path.enter (some s!"enum '{e.name}'")
  let problem := Diagnostic.constraint .enumeration inner
  match matchField fields refused earlier e with
  | .unresolved => ⟨e, []⟩
  | .refused message => ⟨e, Report.ofDiagnostics [problem message]⟩
  | .accepted maxValue =>
    { outcome := { e with isComplete := e.values.length == maxValue + 1 }
      report := Report.ofDiagnostics ((e.valuesProblems maxValue).map problem) ++
        [.milestone (.enumeration e.name e.values.length (maxValue + 1))] }

/-- Check the enumerations of a register in order. -/
def settleAll (path : Path) (fields : List BitField) (refused : Option (List BitRange))
    (enums : List RegisterEnum) : Checked (List RegisterEnum) :=
  let settled := inTurn (fun earlier e => [settle path fields refused earlier e]) [] enums
  ⟨settled.map (·.outcome), settled.flatMap (·.report)⟩

end RegisterMap.RegisterEnum
