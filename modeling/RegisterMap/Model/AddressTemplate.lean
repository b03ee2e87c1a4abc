import RegisterMap.Numeral
import RegisterMap.Text.Pieces

/-!
# Split addresses

A register with separate read and write addresses gives both by one template: a hexadecimal number
with a placeholder for the digit in which they differ.
-/

namespace RegisterMap.AddressTemplate

def placeholder : Char := '?'

def readDigit : Char := 'C'

def writeDigit : Char := 'D'

/-- The ways in which a template or a pair of addresses is refused. -/
inductive Error where
  | placeholderCount (template : String)
  | notHexadecimal (template : String)
  | noTemplate (read write : Int)
  deriving Repr, DecidableEq

def Error.message : Error → String
  | .placeholderCount template =>
    s!"split address template '{template}' must contain exactly one '{placeholder}' placeholder"
  | .notHexadecimal template =>
    s!"split address template '{template}' is not a hexadecimal number"
  | .noTemplate read write =>
    s!"read address {Numeral.hex read} and write address {Numeral.hex write} can not be " ++
      "expressed as a split address template"

/-! ### Expanding a template -/

/-- A text without the mark of hexadecimal numbers. -/
def withoutBaseMark : List Char → List Char
  | '0' :: 'x' :: rest => rest
  | '0' :: 'X' :: rest => rest
  | text => text

/-- The digits of a template, which may stand before a final line feed. -/
def digits (template : String) : List Char :=
  withoutBaseMark (Text.beforeFinalBreak template.toList)

/-- The address that comes of a digit in the place of the placeholder. -/
def address (digits : List Char) (digit : Char) : Nat :=
  Numeral.value 16 (digits.map fun c => if c = placeholder then digit else c)

/-- The read address and the write address of a template. -/
def expand (template : String) : Except Error (Nat × Nat) :=
  let digits := digits template
  if template.toList.count placeholder ≠ 1 then .error (.placeholderCount template)
  else if digits.all fun c => c = placeholder || Numeral.isHexDigit c then
    .ok (address digits readDigit, address digits writeDigit)
  else .error (.notHexadecimal template)

/-! ### Finding a template -/

/-- The common digits of two numerals with a placeholder where one has the read digit and the other
the write digit. Elsewhere, and in length, they must agree. -/
def merge : List Char → List Char → Option (List Char)
  | r :: rs, w :: ws =>
    if r = w then (merge rs ws).map (r :: ·)
    else if r.toUpper = readDigit ∧ w.toUpper = writeDigit ∧ rs = ws then
      some (placeholder :: rs)
    else none
  | _, _ => none

/-- The template of a pair of addresses. -/
def ofAddresses (read write : Int) : Except Error String :=
  match merge (Numeral.signedHex read) (Numeral.signedHex write) with
  | some template => .ok ("0x" ++ String.ofList template)
  | none => .error (.noTemplate read write)

end RegisterMap.AddressTemplate
