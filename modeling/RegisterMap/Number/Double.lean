/-!
# Double precision numbers

A finite number of double precision is a mantissa below `2 ^ 53` times a power of two that is at
least `2 ^ -1074`. A decimal number is read as the nearest of them, and of two that are equally
near as the one with the even mantissa.
-/

namespace RegisterMap

/-- A number of double precision. Of a finite number other than a multiple of `2 ^ -1074` below
`2 ^ -1022`, the mantissa has 53 bits. -/
inductive Double where
  | nan
  | infinite (negative : Bool)
  | finite (negative : Bool) (mantissa : Nat) (exponent : Int)
  deriving Repr, DecidableEq

namespace Double

/-- The mantissa of a finite number is below this limit, and not below half of it where the exponent
could be smaller. -/
def mantissaLimit : Nat := 1 <<< 53

/-- The exponent of the smallest positive number. -/
def minExponent : Int := -1074

/-- The exponent of the largest finite number. -/
def maxExponent : Int := 971

/-- The quotient of two numbers rounded to the nearest whole number, a half to the even one. -/
def roundQuotient (numerator denominator : Nat) : Nat :=
  let quotient := numerator / denominator
  let twice := 2 * (numerator % denominator)
  if denominator < twice || (twice == denominator && quotient % 2 == 1) then quotient + 1
  else quotient

/-- A ratio times a power of a base, as a ratio. -/
def scale (numerator denominator base : Nat) (exponent : Int) : Nat × Nat :=
  if 0 ≤ exponent then (numerator * base.pow exponent.toNat, denominator)
  else (numerator, denominator * base.pow (-exponent).toNat)

/-- Whether a ratio is smaller than a power of two. -/
def belowPower (numerator denominator : Nat) (exponent : Int) : Bool :=
  let (n, d) := scale numerator denominator 2 (-exponent)
  n < d

/-- The nearest number to a ratio of positive numbers. -/
def ofRatio (negative : Bool) (numerator denominator : Nat) : Double :=
  let size : Int := Int.ofNat numerator.log2 - Int.ofNat denominator.log2
  let size := if belowPower numerator denominator size then size - 1 else size
  let exponent := max (size - 52) minExponent
  let (n, d) := scale numerator denominator 2 (-exponent)
  let mantissa := roundQuotient n d
  let (mantissa, exponent) :=
    if mantissa = mantissaLimit then (mantissaLimit / 2, exponent + 1) else (mantissa, exponent)
  if maxExponent < exponent then .infinite negative else .finite negative mantissa exponent

/-- The nearest number to `digits * 10 ^ exponent`. Powers that are out of range whatever the
digits are not computed. -/
def ofDecimal (negative : Bool) (digits : Nat) (exponent : Int) : Double :=
  let magnitude := exponent + Int.ofNat (Nat.toDigits 10 digits).length
  if digits = 0 ∨ magnitude < -400 then .finite negative 0 minExponent
  else if 400 < magnitude then .infinite negative
  else
    let (n, d) := scale digits 1 10 exponent
    ofRatio negative n d

end Double

end RegisterMap
