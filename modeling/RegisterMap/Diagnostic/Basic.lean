import RegisterMap.Text.Quoted

/-!
# Diagnostics

A diagnostic tells what is wrong with one table of a document. It carries the kind of the table,
the breadcrumbs of the entities around it, and the key if the problem is that of a single key.
-/

namespace RegisterMap

/-- The kinds of tables in a document. -/
inductive TableKind where
  | root
  | register
  | bitField
  | enumeration
  | enumValue
  deriving Repr, DecidableEq

namespace TableKind

def all : List TableKind := [root, register, bitField, enumeration, enumValue]

/-- The name of a kind of table. -/
def name : TableKind → String
  | root => "RootDescription"
  | register => "Register"
  | bitField => "BitField"
  | enumeration => "Enum"
  | enumValue => "EnumValue"

/-- The kind of table with a name. -/
def ofName? (name : String) : Option TableKind := all.find? (·.name == name)

instance : ToString TableKind := ⟨name⟩

end TableKind

/-- The ways in which a table can be wrong. -/
inductive DiagnosticKind where
  /-- A required key is absent. -/
  | missingKey
  /-- A key is none of those that the table may have. -/
  | unknownKey
  /-- A value has the wrong type or unusable content. -/
  | invalidValue
  /-- The table does not fit with another value or entity. -/
  | constraint
  deriving Repr, DecidableEq

namespace DiagnosticKind

def all : List DiagnosticKind := [missingKey, unknownKey, invalidValue, constraint]

/-- The words for a kind of diagnostic. -/
def words : DiagnosticKind → String
  | missingKey => "missing key"
  | unknownKey => "unknown key"
  | invalidValue => "invalid value"
  | constraint => "constraint error"

/-- The name of a kind of diagnostic. -/
def name : DiagnosticKind → String
  | missingKey => "MissingKey"
  | unknownKey => "UnknownKey"
  | invalidValue => "InvalidValue"
  | constraint => "ConstraintError"

/-- The kind of diagnostic with given words. -/
def ofWords? (words : String) : Option DiagnosticKind := all.find? (·.words == words)

end DiagnosticKind

/-- The breadcrumbs of nested entities, the outermost first. -/
abbrev Path := List String

namespace Path

/-- The path inside an entity. An entity that cannot be named leaves no breadcrumb. -/
def enter (p : Path) (crumb : Option String) : Path := p ++ crumb.toList

@[simp] theorem enter_none (p : Path) : p.enter none = p := by simp [enter]

@[simp] theorem enter_some (p : Path) (crumb : String) : p.enter (some crumb) = p ++ [crumb] := rfl

end Path

structure Diagnostic where
  kind : DiagnosticKind
  table : TableKind
  path : Path
  key : Option String
  message : String
  deriving Repr, DecidableEq

namespace Diagnostic

/-! ### Kinds -/

def missingKey (table : TableKind) (path : Path) (key : String) : Diagnostic :=
  ⟨.missingKey, table, path, some key, "required key is missing"⟩

/-- A key is none of those that the table may have. -/
def unknownKey (table : TableKind) (path : Path) (key : String) : Diagnostic :=
  ⟨.unknownKey, table, path, some key, "unsupported key"⟩

/-- The value of a key is unusable. -/
def invalidValue (table : TableKind) (path : Path) (key message : String) : Diagnostic :=
  ⟨.invalidValue, table, path, some key, message⟩

/-- The table does not fit with another value or entity. -/
def constraint (table : TableKind) (path : Path) (message : String) : Diagnostic :=
  ⟨.constraint, table, path, none, message⟩

/-! ### Text -/

/-- The breadcrumbs, each on a line of its own. -/
def trail (path : Path) : String := String.join (path.map fun crumb => s!"\n\t--> {crumb}")

def text (d : Diagnostic) : String :=
  let key := (d.key.map fun key => s!", key: '{key}'").getD ""
  s!"{d.kind.words}: {d.message}{key}, table type: '{d.table}'{trail d.path}"

instance : ToString Diagnostic := ⟨text⟩

/-- A diagnostic in one line, without its breadcrumbs. -/
def describe (d : Diagnostic) : String :=
  let key := (d.key.map Text.quoted).getD "None"
  s!"<{d.kind.name} {d.table} key={key} {Text.quoted d.message}>"

/-- The texts of all diagnostics, and a line that counts them. -/
def render (ds : List Diagnostic) : String :=
  let summary :=
    if ds.length = 1 then "error: aborting due to previous error"
    else s!"error: aborting due to {ds.length} previous errors"
  String.intercalate "\n" (ds.map (fun d => s!"{d}\n") ++ [summary])

/-- The summary of a failed check, possibly after a word on what was checked. -/
def failureText (ds : List Diagnostic) (subject : Option String) : String :=
  let plural := if ds.length = 1 then "" else "s"
  let summary := s!"validation failed with {ds.length} error{plural}"
  (subject.map fun subject => s!"{subject}: {summary}").getD summary

end Diagnostic

end RegisterMap
