/-!
# Bit masks

Masks are natural numbers whose binary digits are the bits. Integers that are combined with a mask
are read in two's complement, with the sign extended without end.
-/

namespace RegisterMap.Bits

/-! ### Positions -/

/-- A bit position or a width that is negative. -/
inductive PositionError where
  | negative
  deriving Repr, DecidableEq

def PositionError.message : PositionError → String
  | .negative => "negative shift count"

/-- An integer as a bit position or a width. -/
def position (n : Int) : Except PositionError Nat :=
  if n < 0 then .error .negative else .ok n.toNat

/-! ### Masks -/

/-- The count of the numbers that fit in `width` bits, which is also the place value of the bit at
that position. -/
def capacity (width : Nat) : Nat := 1 <<< width

/-- The mask of the lowest `width` bits, which is also the largest number that fits in them. -/
def ones (width : Nat) : Nat := capacity width - 1

/-- The bits that one part of a mask contributes. -/
inductive Selection where
  /-- A single bit. -/
  | bit (position : Int)
  /-- Each bit of a list. -/
  | each (positions : List Int)
  /-- All bits from `lsb` up to `msb`. -/
  | range (msb lsb : Int)
  deriving Repr, DecidableEq

namespace Selection

def bitMask (n : Int) : Except PositionError Nat := return 1 <<< (← position n)

def mask : Selection → Except PositionError Nat
  | .bit n => bitMask n
  | .each ns => return (← ns.mapM bitMask).foldl (· ||| ·) 0
  | .range msb lsb => return ones (← position (msb - lsb + 1)) <<< (← position lsb)

end Selection

/-- The mask of all bits that are selected by some part. -/
def mask (selections : List Selection) : Except PositionError Nat :=
  return (← selections.mapM Selection.mask).foldl (· ||| ·) 0

/-! ### Integers as bits -/

/-- The lowest `width` bits of an integer. -/
def truncate (width : Nat) (value : Int) : Nat := (value % capacity width).toNat

/-- The lowest `width` bits of an integer, each inverted. -/
def invert (value : Int) (width : Nat) : Nat := truncate width (-value - 1)

end RegisterMap.Bits
