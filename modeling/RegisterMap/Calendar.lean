import RegisterMap.Numeral

/-!
# Dates and times

Calendar dates, times of day, and the two together with or without an offset from universal time.
Each has a plain text and a form that names its parts.
-/

namespace RegisterMap

structure Date where
  year : Nat
  month : Nat
  day : Nat
  deriving Repr, DecidableEq

structure TimeOfDay where
  hour : Nat
  minute : Nat
  second : Nat
  microsecond : Nat
  deriving Repr, DecidableEq

/-- A date, a time, or both. The offset from universal time is in minutes. -/
inductive Moment where
  | date (date : Date)
  | time (time : TimeOfDay)
  | dateTime (date : Date) (time : TimeOfDay) (offset : Option Int)
  deriving Repr, DecidableEq

/-! ### Calendar rules -/

namespace Date

/-- Whether a year has a leap day. -/
def isLeapYear (year : Nat) : Bool :=
  year % 4 == 0 && (year % 100 != 0 || year % 400 == 0)

/-- The number of days of a month. -/
def daysInMonth (year month : Nat) : Nat :=
  if month = 2 then (if isLeapYear year then 29 else 28)
  else if month ∈ [4, 6, 9, 11] then 30
  else 31

/-- Whether the date is one of the calendar, which starts with the year 1. -/
def isValid (d : Date) : Bool :=
  1 ≤ d.year && 1 ≤ d.month && d.month ≤ 12 && 1 ≤ d.day && d.day ≤ daysInMonth d.year d.month

/-! ### Text -/

/-- A date as year, month and day. -/
def text (d : Date) : String :=
  s!"{Numeral.padded 4 d.year}-{Numeral.padded 2 d.month}-{Numeral.padded 2 d.day}"

end Date

namespace TimeOfDay

/-- A time as hour, minute and second, with six decimal places unless the second is whole. -/
def text (t : TimeOfDay) : String :=
  let whole := s!"{Numeral.padded 2 t.hour}:{Numeral.padded 2 t.minute}:{Numeral.padded 2 t.second}"
  if t.microsecond = 0 then whole else s!"{whole}.{Numeral.padded 6 t.microsecond}"

/-- The parts of a time that are named: the second and its fraction only from the last on that is
not zero. -/
def parts (t : TimeOfDay) : List Nat :=
  if t.microsecond ≠ 0 then [t.hour, t.minute, t.second, t.microsecond]
  else if t.second ≠ 0 then [t.hour, t.minute, t.second]
  else [t.hour, t.minute]

end TimeOfDay

/-! ### Offsets -/

/-- An offset in hours and minutes after its sign. -/
def offsetText (minutes : Int) : String :=
  let sign := if minutes < 0 then "-" else "+"
  let size := minutes.natAbs
  s!"{sign}{Numeral.padded 2 (size / 60)}:{Numeral.padded 2 (size % 60)}"

/-- An offset by its parts: a count of days that may be negative and seconds within the day. -/
def offsetForm (minutes : Int) : String :=
  if minutes = 0 then "datetime.timezone.utc"
  else
    let seconds := (60 * minutes).emod 86400
    let duration := if minutes < 0 then s!"days=-1, seconds={seconds}" else s!"seconds={seconds}"
    s!"datetime.timezone(datetime.timedelta({duration}))"

namespace Moment

/-- The plain text of a moment. -/
def text : Moment → String
  | date d => d.text
  | time t => t.text
  | dateTime d t offset =>
    let zone := (offset.map offsetText).getD ""
    s!"{d.text} {t.text}{zone}"

/-- The name of the kind of moment. -/
def kindName : Moment → String
  | date _ => "date"
  | time _ => "time"
  | dateTime _ _ _ => "datetime"

/-- A moment by its parts. -/
def form : Moment → String
  | date d => s!"datetime.date({d.year}, {d.month}, {d.day})"
  | time t => s!"datetime.time({numbers t.parts})"
  | dateTime d t offset =>
    let zone := (offset.map fun minutes => s!", tzinfo={offsetForm minutes}").getD ""
    s!"datetime.datetime({numbers ([d.year, d.month, d.day] ++ t.parts)}{zone})"
where
  /-- Numbers between commas. -/
  numbers (ns : List Nat) : String := String.intercalate ", " (ns.map toString)

end Moment

end RegisterMap
