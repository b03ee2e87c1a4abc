/-!
# Numerals

Reading and writing whole numbers in a base. Hexadecimal digits are written in small letters and
read in either case. There is a limit on the decimal digits of a text that is read.
-/

namespace RegisterMap.Numeral

/-! ### Reading -/

/-- Whether a character is a hexadecimal digit. -/
def isHexDigit (c : Char) : Bool :=
  c.isDigit || ('a' ≤ c && c ≤ 'f') || ('A' ≤ c && c ≤ 'F')

def digitValue (c : Char) : Nat :=
  if c.isDigit then c.toNat - 0x30
  else if 'a' ≤ c then c.toNat - 0x57
  else c.toNat - 0x37

/-- The number that a run of digits denotes in a base. -/
def value (base : Nat) (digits : List Char) : Nat :=
  digits.foldl (fun n c => base * n + digitValue c) 0

/-- A text with more decimal digits than this is not read as a number. -/
def maxDigits : Nat := 4300

/-- What is said of a text with too many decimal digits. -/
def tooManyDigits (count : Nat) : String :=
  s!"Exceeds the limit ({maxDigits} digits) for integer string conversion: " ++
    s!"value has {count} digits; use sys.set_int_max_str_digits() to increase the limit"

/-! ### Writing -/

def hexDigits (n : Nat) : List Char := Nat.toDigits 16 n

/-- A number in a fixed count of hexadecimal digits, or in more if it needs them. -/
def paddedHex (width n : Nat) : List Char := (hexDigits n).leftpad width '0'

/-- The hexadecimal digits of an integer after its sign. -/
def signedHex (n : Int) : List Char :=
  if n < 0 then '-' :: hexDigits n.natAbs else hexDigits n.natAbs

/-- An integer in hexadecimal notation with its base mark, such as `-0x1f`. -/
def hex (n : Int) : String :=
  if n < 0 then "-0x" ++ String.ofList (hexDigits n.natAbs)
  else "0x" ++ String.ofList (hexDigits n.natAbs)

/-- A decimal number in a fixed count of digits, or in more if it needs them. -/
def padded (width n : Nat) : String := String.ofList ((Nat.toDigits 10 n).leftpad width '0')

end RegisterMap.Numeral
