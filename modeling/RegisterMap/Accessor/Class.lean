import RegisterMap.Accessor.Code

/-!
# Classes and their members

A generated module consists of constants and classes. The members of a class come in sections with
an empty line before each.
-/

namespace RegisterMap.Accessor

/-! ### Members -/

/-- A constant of a class or of the module. A value may go on over further lines. -/
structure Constant where
  comment : Option String
  name : String
  annotation : Option String
  value : String
  continuation : Code
  deriving Repr, DecidableEq

namespace Constant

def plain (name value : String) : Constant := ⟨none, name, none, value, []⟩

def code (c : Constant) : Code :=
  let annotation := (c.annotation.map fun type => s!": {type}").getD ""
  c.comment.toList ++ [s!"{c.name}{annotation} = {c.value}"] ++ c.continuation

end Constant

structure Method where
  isClassMethod : Bool
  name : String
  parameters : List String
  result : String
  doc : Code
  body : Code
  deriving Repr, DecidableEq

namespace Method

/-- A method of the instances of a class, without documentation. -/
def simple (name : String) (parameters : List String) (result : String) (body : Code) : Method :=
  ⟨false, name, "self" :: parameters, result, [], body⟩

/-- The line of a method with its parameters and its result. -/
def header (m : Method) : String :=
  let parameters := String.intercalate ", " m.parameters
  s!"def {m.name}({parameters}) -> {m.result}:"

def code (m : Method) : Code :=
  (if m.isClassMethod then ["@classmethod"] else []) ++ .block m.header (m.doc ++ m.body)

end Method

inductive Member where
  | constant (constant : Constant)
  | method (method : Method)
  deriving Repr, DecidableEq

namespace Member

def name : Member → String
  | constant c => c.name
  | method m => m.name

def code : Member → Code
  | constant c => c.code
  | method m => m.code

end Member

/-! ### Classes -/

structure Class where
  name : String
  bases : List String
  doc : Code
  sections : List (List Member)
  deriving Repr, DecidableEq

namespace Class

def members (c : Class) : List Member := c.sections.flatten

def header (c : Class) : String :=
  let bases := String.intercalate ", " c.bases
  if bases.isEmpty then s!"class {c.name}:" else s!"class {c.name}({bases}):"

def code (c : Class) : Code :=
  .block c.header (c.doc ++ c.sections.flatMap fun members => "" :: members.flatMap Member.code)

end Class

/-! ### Items of a module -/

/-- A part of the generated module: constants that stand together, or a class. -/
inductive Item where
  | constants (constants : List Constant)
  | classDef (definition : Class)
  deriving Repr, DecidableEq

namespace Item

def names : Item → List String
  | constants cs => cs.map Constant.name
  | classDef c => [c.name]

/-- The lines of an item, after two empty ones. -/
def code : Item → Code
  | constants cs => .blank 2 ++ cs.flatMap Constant.code
  | classDef c => .blank 2 ++ c.code

end Item

end RegisterMap.Accessor
