import RegisterMap.Number.Double
import RegisterMap.Numeral

/-!
# Shortest decimal form

A number of double precision is written with the fewest decimal digits that read back as the same
number, and of the candidates with that many digits as the nearest one.
-/

namespace RegisterMap.Double

/-! ### The digits -/

/-- The numbers that read back as `mantissa * 2 ^ exponent` lie between these bounds, given in
quarters of `2 ^ exponent`. Below a power of two the spacing halves. -/
def quarterBounds (mantissa : Nat) (exponent : Int) : Nat × Nat :=
  let below := if mantissa = mantissaLimit / 2 ∧ minExponent < exponent then 1 else 2
  (4 * mantissa - below, 4 * mantissa + 2)

/-- The decimal exponent of the first digit of a ratio. -/
def leadingExponent (numerator denominator : Nat) : Int :=
  let size : Int := Int.ofNat numerator.log2 - Int.ofNat denominator.log2
  let start := (size * 30103).fdiv 100000 - 1
  let reached (k : Int) : Bool :=
    let (n, d) := scale numerator denominator 10 (-k)
    d ≤ n
  ([2, 1, 0].map (start + ·)).find? reached |>.getD start

/-- The multiple of `10 ^ grid` that is nearest to a number among those that read back as it, if
there is one: given in units of `10 ^ grid`. Of two equally near ones it is the even one. -/
def nearestOnGrid? (mantissa : Nat) (exponent grid : Int) : Option Nat :=
  let (unitN, unitD) := scale 1 1 2 exponent
  -- a quarter of a unit of the last place, in units of the grid
  let (n, d) := scale unitN (4 * unitD) 10 (-grid)
  let (low, high) := quarterBounds mantissa exponent
  let inside (k : Nat) : Bool :=
    if mantissa % 2 = 0 then low * n ≤ k * d && k * d ≤ high * n
    else low * n < k * d && k * d < high * n
  let below := 4 * mantissa * n / d
  let twice := 2 * (4 * mantissa * n % d)
  let preferUp := d < twice || (twice == d && below % 2 == 1)
  match inside below, inside (below + 1) with
  | true, true => some (if preferUp then below + 1 else below)
  | true, false => some below
  | false, true => some (below + 1)
  | false, false => none

/-- The shortest digits of a positive number and the decimal exponent of the first of them. -/
def shortestDigits (mantissa : Nat) (exponent : Int) : List Char × Int :=
  let (n, d) := scale mantissa 1 2 exponent
  let first := leadingExponent n d
  let onGrid (places : Nat) : Option (Nat × Int) :=
    let grid := first - Int.ofNat places
    (nearestOnGrid? mantissa exponent grid).map (·, grid)
  let (units, grid) := ((List.range 17).findSome? onGrid).getD (mantissa, 0)
  let digits := Nat.toDigits 10 units
  let trimmed := (digits.reverse.dropWhile (· == '0')).reverse
  (trimmed, grid + Int.ofNat digits.length - 1)

/-! ### The layout -/

/-- A number whose first digit has a decimal exponent in this range is written without an
exponent. -/
def isPositional (exponent : Int) : Bool := -4 ≤ exponent && exponent < 16

/-- Digits with a point after the place of the units, which has at least one digit on both
sides. -/
def positional (digits : List Char) (exponent : Int) : List Char :=
  if exponent < 0 then
    '0' :: '.' :: List.replicate (-exponent - 1).toNat '0' ++ digits
  else
    let whole := exponent.toNat + 1
    let fraction := digits.drop whole
    (digits.take whole).rightpad whole '0' ++ '.' :: (if fraction.isEmpty then ['0'] else fraction)

/-- Digits with a point after the first of them, and an exponent of at least two digits. -/
def scientific (digits : List Char) (exponent : Int) : List Char :=
  let fraction := digits.drop 1
  let sign := if exponent < 0 then '-' else '+'
  digits.take 1 ++ (if fraction.isEmpty then [] else '.' :: fraction) ++
    'e' :: sign :: (Nat.toDigits 10 exponent.natAbs).leftpad 2 '0'

/-- The shortest text that reads back as a number. -/
def text : Double → String
  | nan => "nan"
  | infinite negative => if negative then "-inf" else "inf"
  | finite negative mantissa exponent =>
    let magnitude :=
      if mantissa = 0 then ['0', '.', '0']
      else
        let (digits, first) := shortestDigits mantissa exponent
        if isPositional first then positional digits first else scientific digits first
    String.ofList (if negative then '-' :: magnitude else magnitude)

end RegisterMap.Double
