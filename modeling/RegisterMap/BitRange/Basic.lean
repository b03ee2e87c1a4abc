import RegisterMap.Bits

/-!
# Bit ranges

A bit range is a run of neighbouring bits of a register. It is read out of a register value and
written into one as a field.
-/

namespace RegisterMap

/-- The bits from `lsb` up to `msb`. -/
structure BitRange where
  msb : Nat
  lsb : Nat
  lsb_le_msb : lsb ≤ msb := by omega
  deriving Repr, DecidableEq

namespace BitRange

/-- The ways in which numbers or a text fail to give a bit range, or a range to give a number. -/
inductive Error where
  | negativeBit (lsb : Int)
  | reversed (msb lsb : Int)
  | notBitNumber (text : String)
  | tooManyDigits (count : Nat)
  | bitNumberTooLarge (text : String)
  | reversedText (text : String)
  | redundantText (text : String) (bit : Nat)
  | notBitRange (text : String)
  | tooWide (range : BitRange)
  deriving Repr, DecidableEq

/-- The range that consists of one bit. -/
def single (bit : Nat) : BitRange := ⟨bit, bit, Nat.le_refl bit⟩

def ofBits (msb lsb : Int) : Except Error BitRange :=
  if h : 0 ≤ lsb ∧ lsb ≤ msb then .ok ⟨msb.toNat, lsb.toNat, by omega⟩
  else if lsb < 0 then .error (.negativeBit lsb)
  else .error (.reversed msb lsb)

/-! ### Bits -/

def width (r : BitRange) : Nat := r.msb - r.lsb + 1

/-- Whether the range is a single bit. -/
def isSingle (r : BitRange) : Bool := r.msb == r.lsb

/-- Whether a bit belongs to the range. -/
def contains (r : BitRange) (bit : Nat) : Bool := r.lsb ≤ bit && bit ≤ r.msb

/-- The bits from the lowest to the highest. -/
def bits (r : BitRange) : List Nat := List.range' r.lsb r.width

def mask (r : BitRange) : Nat := Bits.ones r.width <<< r.lsb

/-- A range of more bits than this has no largest value. -/
def maxWidth : Nat := 64

/-- The largest value of a field in the range. -/
def maxValue (r : BitRange) : Except Error Nat :=
  if maxWidth < r.width then .error (.tooWide r) else .ok (Bits.ones r.width)

/-! ### Fields -/

/-- The field that a register value holds in the range. -/
def get (r : BitRange) (register : Int) : Nat :=
  Bits.truncate r.width (register / Bits.capacity r.lsb)

/-- The register value, cut to the width of the register, with the field replaced. The bits of the
field that do not fit in the range are dropped. -/
def set (r : BitRange) (field register : Int) (registerWidth : Nat) : Nat :=
  let kept := Bits.truncate registerWidth register
  let above := Bits.capacity (r.msb + 1)
  let unit := Bits.capacity r.lsb
  kept / above * above + Bits.truncate r.width field * unit + kept % unit

/-! ### Order -/

/-- Ranges are ordered by their lowest bit, and then by their highest bit. -/
def lt (r s : BitRange) : Bool := r.lsb < s.lsb || (r.lsb == s.lsb && r.msb < s.msb)

/-- The order with equality. -/
def le (r s : BitRange) : Bool := lt r s || r == s

def ascending (ranges : List BitRange) : List BitRange := ranges.mergeSort le

def descending (ranges : List BitRange) : List BitRange := ranges.mergeSort fun r s => le s r

end BitRange

end RegisterMap
