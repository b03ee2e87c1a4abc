import RegisterMap.Calendar
import RegisterMap.Toml.Character

/-!
# Dates and times in a TOML document

Dates and times have parts of fixed width. The fraction of a second is cut after six places.
-/

namespace RegisterMap.Toml

/-- Read a number of a fixed count of digits up to a maximum. -/
def readPart (width maximum : Nat) (text : List Char) : Option (Nat × List Char) :=
  let digits := text.take width
  let n := Numeral.value 10 digits
  if digits.length = width ∧ digits.all Char.isDigit ∧ n ≤ maximum then some (n, text.drop width)
  else none

/-- Read a mark and the part after it. -/
def readMarkedPart (mark : Char) (width maximum : Nat) : Reader Nat
  | c :: rest => if c = mark then readPart width maximum rest else none
  | [] => none

def readDate (text : List Char) : Option (Date × List Char) := do
  let (year, text) ← readPart 4 9999 text
  let (month, text) ← readMarkedPart '-' 2 12 text
  let (day, text) ← readMarkedPart '-' 2 31 text
  let date : Date := ⟨year, month, day⟩
  if date.isValid then some (date, text) else none

/-- Read the microseconds of a fraction of a second. No fraction means none. -/
def readMicroseconds : List Char → Nat × List Char
  | '.' :: rest =>
    let digits := rest.takeWhile Char.isDigit
    if digits.isEmpty then (0, '.' :: rest)
    else (Numeral.value 10 ((digits.take 6).rightpad 6 '0'), rest.dropWhile Char.isDigit)
  | text => (0, text)

def readTime (text : List Char) : Option (TimeOfDay × List Char) := do
  let (hour, text) ← readPart 2 23 text
  let (minute, text) ← readMarkedPart ':' 2 59 text
  let (second, text) ← readMarkedPart ':' 2 59 text
  let (microsecond, text) := readMicroseconds text
  return (⟨hour, minute, second, microsecond⟩, text)

/-- Read an offset from universal time in hours and minutes. -/
def readHourOffset (text : List Char) : Option (Int × List Char) := do
  let (hour, text) ← readPart 2 23 text
  let (minute, text) ← readMarkedPart ':' 2 59 text
  return (60 * hour + minute, text)

def readOffset : Reader Int
  | 'Z' :: rest => some (0, rest)
  | 'z' :: rest => some (0, rest)
  | '+' :: rest => readHourOffset rest
  | '-' :: rest => (readHourOffset rest).map fun (offset, rest) => (-offset, rest)
  | _ => none

/-- Read the time after a date, and the offset after that, if it has one. -/
def readTimeOfDate : Reader (TimeOfDay × Option Int)
  | c :: rest =>
    if c == 'T' || c == 't' || c == ' ' then
      (readTime rest).map fun (time, rest) =>
        match readOffset rest with
        | some (offset, rest) => ((time, some offset), rest)
        | none => ((time, none), rest)
    else none
  | [] => none

/-- Read a date, a time, or a date and a time. -/
def readMoment (text : List Char) : Option (Moment × List Char) :=
  match readDate text with
  | some (date, rest) =>
    match readTimeOfDate rest with
    | some ((time, offset), rest) => some (.dateTime date time offset, rest)
    | none => some (.date date, rest)
  | none => (readTime text).map fun (time, rest) => (.time time, rest)

end RegisterMap.Toml
