import RegisterMap.Accessor.Code
import RegisterMap.BitRange.Text

/-!
# Documentation strings

The documentation of a class or a method is the literal between three double quotes at the start
of its body. Backslashes, runs of three quotes, and a quote at the end are escaped.
-/

namespace RegisterMap.Accessor

/-- Why code could not be generated. -/
inductive Error where
  /-- A description consists of blanks only. -/
  | blankDocstring
  /-- An enumeration counts as complete but does not define every value. -/
  | incompleteEnum (enumName register : String)
  /-- A bit range has no largest value. -/
  | range (error : BitRange.Error)
  deriving Repr, DecidableEq

def Error.message : Error → String
  | blankDocstring => "a description consists of blanks only"
  | incompleteEnum enumName register =>
    s!"enum '{enumName}' of register '{register}' is marked complete but does not define every " ++
      "value"
  | range error => error.message

namespace Docstring

/-! ### Escaping -/

/-- The mark around a documentation string. -/
def mark : String := "\"\"\""

/-- A text in which every backslash is doubled. -/
def doubleBackslashes (text : List Char) : List Char :=
  text.flatMap fun c => if c = '\\' then ['\\', '\\'] else [c]

/-- A text in which runs of three quotes are escaped. -/
def escapeMarks : List Char → List Char
  | '"' :: '"' :: '"' :: rest => '\\' :: '"' :: '\\' :: '"' :: '\\' :: '"' :: escapeMarks rest
  | c :: rest => c :: escapeMarks rest
  | [] => []

/-- A text in which a quote at the end stands after a backslash. -/
def escapeEnd (text : List Char) : List Char :=
  match text.reverse with
  | '"' :: '\\' :: _ => text
  | '"' :: before => before.reverse ++ ['\\', '"']
  | _ => text

/-- A text as it stands in a literal. -/
def escape (text : List Char) : List Char :=
  escapeEnd (escapeMarks (doubleBackslashes (Text.strip text)))

/-! ### Layout -/

/-- The lines of a literal, of which the last holds the closing mark alone unless it is the only
one. -/
def layout : List (List Char) → Option Code
  | [] => none
  | [line] => some [mark ++ String.ofList line ++ mark]
  | line :: others =>
    some ((mark ++ String.ofList line) ::
      others.map (fun line => String.ofList (Text.stripRight line)) ++ [mark])

end Docstring

/-- The documentation string for a text. There is none for the empty text. -/
def docstring (text : String) : Except Error Code :=
  if text.isEmpty then .ok []
  else
    match Docstring.layout (Text.lines (Docstring.escape text.toList)) with
    | some code => .ok code
    | none => .error .blankDocstring

end RegisterMap.Accessor
