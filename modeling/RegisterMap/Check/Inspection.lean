import RegisterMap.Diagnostic.Context
import RegisterMap.Document.Reading

/-!
# Inspections

An inspection looks at the keys of one table one after another. It records what is wrong in a
context and remembers whether the table has failed, so that all bad keys of a table are reported
before it is refused.
-/

namespace RegisterMap

structure Inspection where
  table : Table
  kind : TableKind
  context : Context
  hasFailed : Bool
  deriving Repr

namespace Inspection

/-- The start of the inspection of a table. -/
def start (table : Table) (kind : TableKind) : Inspection := ⟨table, kind, .empty, false⟩

/-- Open a scope. -/
def enter (i : Inspection) (crumb : Option String) : Inspection :=
  { i with context := i.context.enter crumb }

/-- Close the scope that was opened last. -/
def leave (i : Inspection) : Inspection := { i with context := i.context.leave }

/-- Record diagnostics that make the table fail, if there are any. -/
def failWith (i : Inspection) (ds : List Diagnostic) : Inspection :=
  { i with context := i.context.record ds, hasFailed := i.hasFailed || !ds.isEmpty }

/-- Record diagnostics that leave the table as it is. -/
def note (i : Inspection) (ds : List Diagnostic) : Inspection :=
  { i with context := i.context.record ds }

/-- Make the table fail without recording anything. -/
def fail (i : Inspection) : Inspection := { i with hasFailed := true }

def missingKey (i : Inspection) (key : String) : Inspection :=
  i.failWith [.missingKey i.kind i.context.path key]

/-- Record an unusable value. -/
def invalidValue (i : Inspection) (key message : String) : Inspection :=
  i.failWith [.invalidValue i.kind i.context.path key message]

/-- Record that the table does not fit with something else. -/
def constraint (i : Inspection) (message : String) : Inspection :=
  i.note [.constraint i.kind i.context.path message]

/-- Refuse the table because it does not fit with something else. -/
def reject (i : Inspection) (message : String) : Inspection := (i.constraint message).fail

/-- Record the keys that are not among those allowed. -/
def checkUnknownKeys (i : Inspection) (allowed : List String) : Inspection :=
  i.note (i.table.unknownKeyProblems i.kind i.context.path allowed)

/-- Take the value of a key, and record it if it is unusable. -/
def take {α : Type} (i : Inspection) (key : String) (r : Reading α) : Option α × Inspection :=
  (r.value?, i.failWith (r.problems i.kind i.context.path key))

/-- Record that a key is absent unless something was made of it, or of another key. -/
def require (i : Inspection) (key : String) (isPresent : Bool) : Inspection :=
  if isPresent || i.table.has key then i else i.missingKey key

end Inspection

end RegisterMap
