import RegisterMap.Check.Inspection

/-!
# Procedures

A procedure goes step by step. It changes a context, or the inspection of a table, and it may stop
before its end; what it has changed by then stays changed.
-/

namespace RegisterMap

/-- Why a procedure stops before its end. -/
inductive Stop where
  /-- A table is refused. -/
  | refused (kind : TableKind)
  /-- A value cannot be used. -/
  | unusable (message : String)
  /-- Something that the procedure takes for granted does not hold. -/
  | broken
  /-- A list has no item at a position. -/
  | noItem
  /-- The document has problems. -/
  | failed (diagnostics : List Diagnostic)
  deriving Repr, DecidableEq

/-- Steps that change a state and may stop. -/
abbrev Procedure (σ : Type) := EStateM Stop σ

namespace Procedure

variable {σ α ε : Type}

/-! ### Stopping -/

/-- A value that is taken for granted. -/
def granted : Option α → Procedure σ α
  | some a => pure a
  | none => throw .broken

/-- The item of a list at a position. -/
def item (items : List α) (position : Nat) : Procedure σ α :=
  match items[position]? with
  | some a => pure a
  | none => throw .noItem

/-- A value that can be used, or else the message of an error. -/
def usable (message : ε → String) : Except ε α → Procedure σ α
  | .ok a => pure a
  | .error e => throw (.unusable (message e))

/-! ### Going on -/

/-- Go on with a value, if there is one. -/
def andThen {β : Type} (p : Procedure σ (Option α)) (next : α → Procedure σ (Option β)) :
    Procedure σ (Option β) := do
  match ← p with
  | some a => next a
  | none => return none

/-- Go on in another way, with the message, where a value cannot be used. -/
def orElseUsable (p : Procedure σ α) (other : String → Procedure σ α) : Procedure σ α :=
  tryCatch p fun
    | .unusable message => other message
    | stop => throw stop

/-- Go on with nothing where a table is refused. -/
def unlessRefused (p : Procedure σ α) : Procedure σ (Option α) :=
  tryCatch (some <$> p) fun
    | .refused _ => pure none
    | stop => throw stop

/-! ### Contexts -/

/-- Record that the value of a key is unusable. -/
def recordInvalid (table : TableKind) (key message : String) : Procedure Context Unit :=
  modify fun c => c.record [.invalidValue table c.path key message]

def recordConstraint (table : TableKind) (message : String) : Procedure Context Unit :=
  modify fun c => c.record [.constraint table c.path message]

/-- Go through a procedure in a scope, which is left however the procedure ends. -/
def within (crumb : Option String) (p : Procedure Context α) : Procedure Context α := do
  modify (·.enter crumb)
  tryFinally p (modify Context.leave)

/-! ### Inspections -/

/-- Inspect a table in a context. -/
def inspect (table : Table) (kind : TableKind) (p : Procedure Inspection α) :
    Procedure Context α := fun c =>
  match p.run ⟨table, kind, c, false⟩ with
  | .ok a i => .ok a i.context
  | .error stop i => .error stop i.context

/-- Leave the table under inspection aside. -/
def aside (p : Procedure Context α) : Procedure Inspection α := fun i =>
  match p.run i.context with
  | .ok a c => .ok a { i with context := c }
  | .error stop c => .error stop { i with context := c }

/-- Inspect a table in a scope, which is left however the inspection ends. -/
def inside (crumb : Option String) (p : Procedure Inspection α) : Procedure Inspection α := do
  modify (·.enter crumb)
  tryFinally p (modify Inspection.leave)

/-- Refuse the table if it has failed. -/
def refuseFailed : Procedure Inspection Unit := do
  let i ← get
  if i.hasFailed then throw (.refused i.kind)

/-- Refuse the table because it does not fit with something else. -/
def reject (message : String) : Procedure Inspection α := do
  modify (·.reject message)
  throw (.refused (← get).kind)

end Procedure

end RegisterMap
