import RegisterMap.Calendar
import RegisterMap.Number.Shortest
import RegisterMap.Text.Quoted

/-!
# Document values

A document is a tree of tables, arrays and scalars. A table is an association list in document
order, and its keys are distinct.
-/

namespace RegisterMap

inductive Value where
  | text (value : String)
  | integer (value : Int)
  | boolean (value : Bool)
  | float (value : Double)
  | moment (value : Moment)
  | array (items : List Value)
  | table (entries : List (String × Value))
  deriving Repr

abbrev Table := List (String × Value)

namespace Table

def get? (t : Table) (key : String) : Option Value := t.lookup key

def has (t : Table) (key : String) : Bool := (t.get? key).isSome

def keys (t : Table) : List String := t.map Prod.fst

end Table

namespace Value

/-! ### Text -/

/-- The text of a truth value inside a value. -/
def booleanForm (b : Bool) : String := if b then "True" else "False"

mutual

/-- The form of a value inside another: texts are quoted, moments named by their parts. -/
def form : Value → String
  | .text s => Text.quoted s
  | .integer n => toString n
  | .boolean b => booleanForm b
  | .float x => x.text
  | .moment m => m.form
  | .array items => "[" ++ String.intercalate ", " (itemForms items) ++ "]"
  | .table entries => "\x7b" ++ String.intercalate ", " (entryForms entries) ++ "\x7d"

/-- The forms of the items of an array. -/
def itemForms : List Value → List String
  | [] => []
  | item :: items => form item :: itemForms items

/-- The forms of the entries of a table. -/
def entryForms : List (String × Value) → List String
  | [] => []
  | (key, value) :: entries => s!"{Text.quoted key}: {form value}" :: entryForms entries

end

/-- The text of a value that stands alone. -/
def plain : Value → String
  | .text s => s
  | .moment m => m.text
  | value => value.form

def describe : Value → String
  | .boolean b => s!"boolean {b}"
  | .integer n => s!"integer {n}"
  | .float x => s!"float {x.text}"
  | .text s => s!"string {Text.quoted s}"
  | .table _ => "table"
  | .array _ => "array"
  | .moment m => s!"{m.kindName} {m.form}"

end Value

end RegisterMap
