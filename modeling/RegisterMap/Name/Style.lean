import RegisterMap.Name.Words
import RegisterMap.Text.Digit

/-!
# Styles of names

The words of a name can be joined in three styles: `snake_case`, `PascalCase` and
`CONSTANT_CASE`. The result is kept usable as a name of the generated code, which can neither
start with a digit nor be a keyword.
-/

namespace RegisterMap.Name

/-- The keywords of the language of the generated code. -/
def keywords : List String :=
  ["False", "None", "True", "and", "as", "assert", "async", "await", "break", "class", "continue",
   "def", "del", "elif", "else", "except", "finally", "for", "from", "global", "if", "import",
   "in", "is", "lambda", "nonlocal", "not", "or", "pass", "raise", "return", "try", "while",
   "with", "yield"]

/-- An underscore before a leading digit, and one after a keyword. -/
def usable (text : List Char) : String :=
  let text := String.ofList (if text.head?.any Text.isDigit then '_' :: text else text)
  if text ∈ keywords then text ++ "_" else text

/-- The words of a name joined by a style. A name without words stays as it is. -/
def restyle (style : List (List Char) → List Char) (name : String) : String :=
  match words name.toList with
  | [] => usable name.toList
  | ws => usable (style ws)

/-- A word with a capital first letter and small letters after it. -/
def capitalize : List Char → List Char
  | [] => []
  | c :: rest => c.toUpper :: rest.map Char.toLower

/-- Small words between underscores. -/
def snake (name : String) : String :=
  restyle (fun ws => ['_'].intercalate (ws.map (·.map Char.toLower))) name

/-- Capitalized words without anything between them. -/
def pascal (name : String) : String := restyle (fun ws => (ws.map capitalize).flatten) name

/-- Words in capitals between underscores. -/
def constant (name : String) : String :=
  restyle (fun ws => ['_'].intercalate (ws.map (·.map Char.toUpper))) name

end RegisterMap.Name
