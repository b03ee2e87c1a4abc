import RegisterMap.Diagnostic.Basic
import RegisterMap.Model.Vocabulary

/-!
# Reports

A report lists what happened while a document was read, in order: the problems that were found,
and the milestones that were reached. The outcome of a check is what it made of the document
together with its report.
-/

namespace RegisterMap

/-- What has been achieved while reading a document or generating code. -/
inductive Milestone where
  | loading (path : String)
  | description (name : String) (version : SpecVersion)
  | enumeration (name : String) (count capacity : Nat)
  | register (name : String) (location : Location) (bitFields enums : Nat)
  | document (name : String) (registers : Nat)
  | module (moduleName description : String)
  | group (title : String) (registers : Nat)
  | accessor (register className : String)
  | written (path : String)
  deriving Repr, DecidableEq

inductive Event where
  | problem (diagnostic : Diagnostic)
  | milestone (milestone : Milestone)
  deriving Repr, DecidableEq

namespace Event

def diagnostic? : Event → Option Diagnostic
  | problem d => some d
  | milestone _ => none

end Event

/-- The steps of a report, in order. -/
abbrev Report := List Event

namespace Report

def diagnostics (r : Report) : List Diagnostic := r.filterMap Event.diagnostic?

/-- A report of problems alone. -/
def ofDiagnostics (ds : List Diagnostic) : Report := ds.map Event.problem

@[simp] theorem diagnostics_nil : diagnostics [] = [] := rfl

@[simp] theorem diagnostics_append (r s : Report) :
    diagnostics (r ++ s) = diagnostics r ++ diagnostics s := List.filterMap_append

@[simp] theorem diagnostics_problem (d : Diagnostic) (r : Report) :
    diagnostics (Event.problem d :: r) = d :: diagnostics r := rfl

@[simp] theorem diagnostics_milestone (m : Milestone) (r : Report) :
    diagnostics (Event.milestone m :: r) = diagnostics r := rfl

@[simp] theorem diagnostics_ofDiagnostics (ds : List Diagnostic) :
    diagnostics (ofDiagnostics ds) = ds := by
  induction ds with
  | nil => rfl
  | cons d ds ih => simpa [ofDiagnostics] using ih

end Report

/-- What a check made of its input, and its report. -/
structure Checked (α : Type) where
  outcome : α
  report : Report
  deriving Repr

end RegisterMap
