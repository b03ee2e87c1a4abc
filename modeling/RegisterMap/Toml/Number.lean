import RegisterMap.Number.Double
import RegisterMap.Numeral
import RegisterMap.Toml.Character

/-!
# Numbers in a TOML document

Whole numbers are decimal, or hexadecimal, octal or binary after a mark. A decimal number with a
fraction or an exponent is a number of double precision. Single underscores may stand between
digits.
-/

namespace RegisterMap.Toml

inductive Number where
  | integer (value : Int)
  | float (value : Double)
  deriving Repr, DecidableEq

/-! ### Digits -/

/-- The digits at the front of a text, of which single underscores may go before any. -/
def moreDigits (isDigit : Char → Bool) : List Char → List Char × List Char
  | [] => ([], [])
  | c :: rest =>
    if isDigit c then
      let (digits, rest) := moreDigits isDigit rest
      (c :: digits, rest)
    else
      match c, rest with
      | '_', d :: rest' =>
        if isDigit d then
          let (digits, rest) := moreDigits isDigit rest'
          (d :: digits, rest)
        else ([], c :: rest)
      | _, _ => ([], c :: rest)

def readDigits (isDigit : Char → Bool) : Reader (List Char)
  | c :: rest =>
    if isDigit c then
      let (digits, rest) := moreDigits isDigit rest
      some (c :: digits, rest)
    else none
  | [] => none

/-- Read decimal digits of which the first is not zero, or zero alone. -/
def readWhole : Reader (List Char)
  | '0' :: rest => some (['0'], rest)
  | text => readDigits Char.isDigit text

/-- Read a sign, which may be left out. -/
def readSign : List Char → Bool × List Char
  | '-' :: rest => (true, rest)
  | '+' :: rest => (false, rest)
  | text => (false, text)

/-! ### Numbers -/

/-- Read a whole number after the mark of its base. -/
def readMarked : Reader Nat
  | '0' :: 'x' :: rest => (readDigits Numeral.isHexDigit rest).map (read 16)
  | '0' :: 'o' :: rest => (readDigits (fun c => '0' ≤ c && c ≤ '7') rest).map (read 8)
  | '0' :: 'b' :: rest => (readDigits (fun c => c == '0' || c == '1') rest).map (read 2)
  | _ => none
where
  /-- The number of the digits that were read. -/
  read (base : Nat) : List Char × List Char → Nat × List Char
    | (digits, rest) => (Numeral.value base digits, rest)

def readFraction : Reader (List Char)
  | '.' :: rest => readDigits Char.isDigit rest
  | _ => none

def readExponent : Reader Int
  | c :: rest =>
    if c == 'e' || c == 'E' then
      let (negative, rest) := readSign rest
      (readDigits Char.isDigit rest).map fun (digits, rest) =>
        let size : Int := Numeral.value 10 digits
        (if negative then -size else size, rest)
    else none
  | [] => none

def readDecimal (text : List Char) : Option (Number × List Char) := do
  let (negative, text) := readSign text
  let (whole, text) ← readWhole text
  let fraction := readFraction text
  let (fractionDigits, text) := fraction.getD ([], text)
  let exponent := readExponent text
  let (power, text) := exponent.getD (0, text)
  let digits := Numeral.value 10 (whole ++ fractionDigits)
  if fraction.isNone && exponent.isNone then
    return (.integer (if negative then -digits else digits), text)
  else
    return (.float (.ofDecimal negative digits (power - fractionDigits.length)), text)

/-- Read the name of a number that has no digits. -/
def readNamed (text : List Char) : Option (Number × List Char) :=
  let (negative, text) := readSign text
  match text with
  | 'i' :: 'n' :: 'f' :: rest => some (.float (.infinite negative), rest)
  | 'n' :: 'a' :: 'n' :: rest => some (.float .nan, rest)
  | _ => none

def readNumber (text : List Char) : Option (Number × List Char) :=
  match readMarked text with
  | some (n, rest) => some (.integer n, rest)
  | none => readDecimal text <|> readNamed text

end RegisterMap.Toml
