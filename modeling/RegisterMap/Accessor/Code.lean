import RegisterMap.Text.Blank

/-!
# Lines of code

Generated code is a list of lines. A block is a header with a body below it that is indented by
one level; an empty line stays empty at any level.
-/

namespace RegisterMap.Accessor

/-- Lines of code, without what ends them. -/
abbrev Code := List String

namespace Code

/-- One level of indentation. -/
def indentation : String := "    "

def indentLine (line : String) : String := if line.isEmpty then "" else indentation ++ line

def indent (c : Code) : Code := c.map indentLine

/-- Lines some levels deeper. -/
def indentBy (c : Code) : Nat → Code
  | 0 => c
  | level + 1 => (c.indentBy level).indent

/-- A header with an indented body. -/
def block (header : String) (body : Code) : Code := header :: body.indent

def blank (count : Nat) : Code := List.replicate count ""

def ofText (text : String) : Code := (Text.lines text.toList).map String.ofList

/-- The lines up to the last that is not empty. -/
def trimmed (c : Code) : Code := (c.reverse.dropWhile String.isEmpty).reverse

/-- The text of code, which ends with its last line that is not empty. -/
def text (c : Code) : String := String.intercalate "\n" c.trimmed ++ "\n"

end Code

end RegisterMap.Accessor
