import RegisterMap.Text.Pieces

/-!
# Blanks and line breaks

The blank characters and the line breaks of Unicode text, and the ways of cutting text along
them: `strip` drops blanks at both ends, `fields` cuts at every run of blanks and `lines` cuts
after every line break.
-/

namespace RegisterMap.Text

/-! ### Blanks -/

/-- The characters with the Unicode property of white space, and the four separators of ASCII. -/
def isBlank (c : Char) : Bool :=
  let n := c.toNat
  (0x9 ≤ n && n ≤ 0xd) || (0x1c ≤ n && n ≤ 0x20) || n == 0x85 || n == 0xa0 || n == 0x1680 ||
    (0x2000 ≤ n && n ≤ 0x200a) || n == 0x2028 || n == 0x2029 || n == 0x202f || n == 0x205f ||
    n == 0x3000

/-- Drop the blanks at the end of a text. -/
def stripRight (text : List Char) : List Char := (text.reverse.dropWhile isBlank).reverse

/-- Drop the blanks at both ends of a text. -/
def strip (text : List Char) : List Char := stripRight (text.dropWhile isBlank)

/-- The maximal runs of characters that are not blank. -/
def fields : List Char → List (List Char)
  | [] => []
  | c :: rest =>
    if isBlank c then fields rest
    else if rest.head?.all isBlank then [c] :: fields rest
    else grow c (fields rest)

/-! ### Line breaks -/

def isLineBreak (c : Char) : Bool :=
  let n := c.toNat
  (0xa ≤ n && n ≤ 0xd) || (0x1c ≤ n && n ≤ 0x1e) || n == 0x85 || n == 0x2028 || n == 0x2029

/-- The lines of a text, without what ends them. A carriage return and the line feed after it end
one line. A break at the end of the text starts no further line. -/
def lines : List Char → List (List Char)
  | [] => []
  | '\r' :: '\n' :: rest => [] :: lines rest
  | c :: rest => if isLineBreak c then [] :: lines rest else grow c (lines rest)

end RegisterMap.Text
