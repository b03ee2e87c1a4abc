import RegisterMap.BitRange.Text
import RegisterMap.Diagnostic.Basic
import RegisterMap.Model.Register
import RegisterMap.Check.Distinct

/-!
# Coverage of a register

The bit fields of a register should partition its bits. Every bit is owned by the first bit field
that covers it. A bit field that reaches past the register is reported once, and so is each bit
field together with each owner of its bits. The bits without an owner are reported as runs.
-/

namespace RegisterMap.Coverage

/-- What keeps bit fields from being a partition. -/
inductive Problem where
  | overlap (range owner : BitRange)
  | outside (range : BitRange) (size : Nat)
  | undefined (runs : List BitRange)
  deriving Repr, DecidableEq

def Problem.message : Problem → String
  | overlap range owner =>
    s!"bit field range '{range}' overlaps with another bit field '{owner}'"
  | outside range size =>
    s!"bit field range '{range}' is not inside register bounds, register size: {size}"
  | undefined [run] =>
    if run.isSingle then s!"register bit '{run}' is undefined"
    else s!"some register bits are undefined, '{run}'"
  | undefined runs =>
    "some register bits are undefined, " ++
      String.intercalate ", " (runs.map fun run => s!"'{run}'")

/-! ### Owners -/

/-- The first range that covers a bit. -/
def owner? (ranges : List BitRange) (bit : Nat) : Option BitRange :=
  ranges.find? (·.contains bit)

/-- The bits of a range that a register of the given size has. -/
def bitsInside (size : Nat) (range : BitRange) : List Nat :=
  List.range' range.lsb (min (range.msb + 1) size - range.lsb)

/-- The problems of a range beside the ranges before it. -/
def rangeProblems (size : Nat) (earlier : List BitRange) (range : BitRange) : List Problem :=
  let owners := ((bitsInside size range).filterMap (owner? earlier)).eraseDups
  owners.map (.overlap range) ++ if size ≤ range.msb then [.outside range size] else []

/-! ### Runs -/

/-- The maximal runs of the bits below `size` that satisfy a test, the lowest first. -/
def runs (free : Nat → Bool) (size : Nat) : List BitRange :=
  (List.range size).foldr extend []
where
  /-- Put a bit before the runs of the bits above it. -/
  extend (bit : Nat) (above : List BitRange) : List BitRange :=
    if free bit then
      match above with
      | run :: others =>
        if h : run.lsb = bit + 1 then ⟨run.msb, bit, by have := run.lsb_le_msb; omega⟩ :: others
        else .single bit :: above
      | [] => [.single bit]
    else above

/-- The problem of the bits that no range covers, if there are any. -/
def undefinedProblems (size : Nat) (ranges : List BitRange) : List Problem :=
  match runs (fun bit => (owner? ranges bit).isNone) size with
  | [] => []
  | undefined => [.undefined undefined]

/-! ### The check -/

/-- The problems of a register of the given size with bit fields over the given ranges. The bits of
bit fields that were refused count as covered; if one of them has no usable range, then uncovered
bits are not a problem. -/
def problems (size : Nat) (ranges : List BitRange) (refused : Option (List BitRange)) :
    List Problem :=
  inTurn (rangeProblems size) [] ranges ++
    match refused with
    | some refused => undefinedProblems size (ranges ++ refused)
    | none => []

/-- The diagnostics for the bit fields of a register. -/
def diagnostics (path : Path) (r : Register) (refused : Option (List BitRange)) :
    List Diagnostic :=
  (problems r.size.bits (r.bitFields.map (·.range)) refused).map fun problem =>
    .constraint .register path problem.message

end RegisterMap.Coverage
