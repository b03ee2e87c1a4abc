import RegisterMap.Model.Register

/-!
# Location traits

A register is reached through a trait for each direction in which it can be accessed. The kind of
its location in that direction selects the trait, which has fixed names in the generated code.
-/

namespace RegisterMap.Accessor

inductive Direction where
  | read
  | write
  deriving Repr, DecidableEq

/-- The name of a direction in the generated code. -/
def Direction.member : Direction → String
  | read => "READ"
  | write => "WRITE"

/-- The letter for a direction in names. -/
def Direction.letter : Direction → String
  | read => "R"
  | write => "W"

/-- The name of a location kind in the generated code. -/
def kindMember : LocationKind → String
  | .index => "INDEX"
  | .relative => "RELATIVE"
  | .absolute => "ABSOLUTE"

structure Trait where
  kind : LocationKind
  direction : Direction
  deriving Repr, DecidableEq

namespace Trait

def all : List Trait :=
  [LocationKind.index, .relative, .absolute].flatMap fun kind => [⟨kind, .read⟩, ⟨kind, .write⟩]

/-- The word for the location kind in names of classes. -/
def word (t : Trait) : String :=
  match t.kind with
  | .index => "Index"
  | .relative => "Rel"
  | .absolute => "Abs"

/-- The protocol that a backend implements. -/
def protocol (t : Trait) : String := s!"Register{t.word}Io{t.direction.letter}"

/-- The class from which accessors inherit. -/
def mixin (t : Trait) : String := s!"Location{t.word}{t.direction.letter}"

/-- The constant that holds the location. -/
def constant (t : Trait) : String :=
  match t.kind with
  | .index => s!"INDEX_{t.direction.letter}"
  | .relative => s!"REL_ADDRESS_{t.direction.letter}"
  | .absolute => s!"ABS_ADDRESS_{t.direction.letter}"

/-- The method of the backend. -/
def method (t : Trait) : String :=
  let direction := match t.direction with
    | .read => "read"
    | .write => "write"
  match t.kind with
  | .index => s!"{direction}_index"
  | .relative => s!"{direction}_rel"
  | .absolute => s!"{direction}_abs"

end Trait

/-- The ways in which a register is accessed, each with its location. -/
def accesses (r : Register) : List (Trait × Location) :=
  (if r.isReadable then [(⟨r.readLocation.kind, .read⟩, r.readLocation)] else []) ++
    if r.isWritable then [(⟨r.writeLocation.kind, .write⟩, r.writeLocation)] else []

end RegisterMap.Accessor
