import RegisterMap.BitRange.Basic
import RegisterMap.Numeral
import RegisterMap.Text.Pieces

/-!
# The text of a bit range

A bit range is written as `msb:lsb`, and a single bit as its number alone. Reading is strict where
it refuses a single bit written as a range.
-/

namespace RegisterMap.BitRange

/-! ### Writing -/

def text (r : BitRange) : String :=
  if r.isSingle then toString r.msb else s!"{r.msb}:{r.lsb}"

instance : ToString BitRange := ⟨text⟩

/-- The text of a range with its kind. -/
def describe (r : BitRange) : String := s!"<BitRange {r.text}>"

def Error.message : Error → String
  | .negativeBit lsb => s!"negative bit number {lsb}"
  | .reversed msb lsb => s!"msb < lsb, msb: {msb}, lsb: {lsb}"
  | .notBitNumber text => s!"invalid bit number '{text}'"
  | .tooManyDigits count => Numeral.tooManyDigits count
  | .bitNumberTooLarge text => s!"bit number '{text}' is too large"
  | .reversedText text =>
    "most significant bit is smaller than least significant bit " ++
      s!"(msb < lsb), value: '{text}'"
  | .redundantText text bit => s!"unnecessary range syntax, change '{text}' to '{bit}'"
  | .notBitRange text => s!"invalid bit range '{text}'"
  | .tooWide range => s!"bit range '{range}' is larger than {maxWidth} bits"

/-! ### Reading -/

/-- The largest bit number that a text may name. -/
def maxBitNumber : Nat := 0xffff

/-- Whether a text is a bit number: decimal digits, possibly before a final line feed. -/
def isBitNumber (text : List Char) : Bool :=
  let digits := Text.beforeFinalBreak text
  !digits.isEmpty && digits.all Char.isDigit

def readBitNumber (text : List Char) : Except Error Nat :=
  if isBitNumber text then
    let digits := Text.beforeFinalBreak text
    let bit := Numeral.value 10 digits
    if Numeral.maxDigits < digits.length then .error (.tooManyDigits digits.length)
    else if maxBitNumber < bit then .error (.bitNumberTooLarge (String.ofList text))
    else .ok bit
  else .error (.notBitNumber (String.ofList text))

def read (text : String) (strict : Bool) : Except Error BitRange :=
  match text.toList.splitOn ':' with
  | [bit] => return single (← readBitNumber bit)
  | [high, low] => do
    let msb ← readBitNumber high
    let lsb ← readBitNumber low
    if h : msb < lsb then .error (.reversedText text)
    else if msb = lsb ∧ strict then .error (.redundantText text msb)
    else return ⟨msb, lsb, by omega⟩
  | _ => .error (.notBitRange text)

end RegisterMap.BitRange
