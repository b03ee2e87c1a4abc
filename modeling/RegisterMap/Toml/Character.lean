/-!
# Characters of a TOML document

A document is read as a list of characters in which every line ends with a line feed. Readers take
what they can from the front of it, and return the rest.
-/

namespace RegisterMap.Toml

/-- Read something from the front of a text. Nothing comes of a text that is not well formed. -/
abbrev Reader (α : Type) := List Char → Option (α × List Char)

/-- Whether a character is white space within a line. -/
def isSpace (c : Char) : Bool := c == ' ' || c == '\t'

/-- Whether a character is white space within a line or ends one. -/
def isSpaceOrBreak (c : Char) : Bool := isSpace c || c == '\n'

/-- Whether a character may stand for itself in a comment or in a text on one line. -/
def isPlain (c : Char) : Bool := c == '\t' || (0x20 ≤ c.toNat && c.toNat != 0x7f)

/-- Drop the white space at the front of a text. -/
def skipSpaces (text : List Char) : List Char := text.dropWhile isSpace

/-- A text in which carriage returns before line feeds are dropped. -/
def normalizeBreaks : List Char → List Char
  | '\r' :: '\n' :: rest => '\n' :: normalizeBreaks rest
  | c :: rest => c :: normalizeBreaks rest
  | [] => []

/-- Drop white space, line breaks and comments. Comments hold only plain characters. -/
def skipFiller (inComment : Bool) : List Char → Option (List Char)
  | [] => some []
  | c :: rest =>
    if inComment then
      if c == '\n' then skipFiller false rest
      else if isPlain c then skipFiller true rest
      else none
    else if isSpaceOrBreak c then skipFiller false rest
    else if c == '#' then skipFiller true rest
    else some (c :: rest)

/-- Drop the rest of a line, which may hold only white space and a comment. -/
def skipLineEnd (text : List Char) : Option (List Char) :=
  match skipSpaces text with
  | [] => some []
  | '\n' :: rest => some rest
  | '#' :: rest =>
    if (rest.takeWhile (· != '\n')).all isPlain then some ((rest.dropWhile (· != '\n')).drop 1)
    else none
  | _ => none

end RegisterMap.Toml
