import RegisterMap.Diagnostic.Basic

/-!
# Diagnostic contexts

A context collects diagnostics while scopes are entered and left. Every diagnostic takes the
breadcrumbs of the scopes that are open when it is recorded.
-/

namespace RegisterMap

/-- The scopes that are open, the outermost first, and the diagnostics recorded so far. A scope
without a breadcrumb belongs to an entity that cannot be named. -/
structure Context where
  scopes : List (Option String)
  diagnostics : List Diagnostic
  deriving Repr, DecidableEq

namespace Context

/-- A context without scopes and diagnostics. -/
def empty : Context := ⟨[], []⟩

def path (c : Context) : Path := c.scopes.filterMap id

/-- Open a scope. -/
def enter (c : Context) (crumb : Option String) : Context :=
  { c with scopes := c.scopes ++ [crumb] }

/-- Close the scope that was opened last. -/
def leave (c : Context) : Context := { c with scopes := c.scopes.dropLast }

def record (c : Context) (ds : List Diagnostic) : Context :=
  { c with diagnostics := c.diagnostics ++ ds }

def hasErrors (c : Context) : Bool := !c.diagnostics.isEmpty

theorem path_enter (c : Context) (crumb : Option String) :
    (c.enter crumb).path = c.path.enter crumb := by
  cases crumb <;> simp [path, enter, Path.enter]

theorem leave_enter (c : Context) (crumb : Option String) : (c.enter crumb).leave = c := by
  simp [leave, enter]

end Context

end RegisterMap
