import RegisterMap.Numeral
import RegisterMap.Text.Printable

/-!
# Quoted text

The quoted form shows a text on one line. It stands between apostrophes, or between double quotes
where that saves escaping an apostrophe. What is not printable is escaped by its code point.
-/

namespace RegisterMap.Text

/-- The mark around a quoted text. -/
def quoteMark (text : List Char) : Char :=
  if text.contains '\'' && !text.contains '"' then '"' else '\''

/-- A character that is not printable, by the shortest escape that holds its code point. -/
def escapeCodePoint (c : Char) : List Char :=
  if c.toNat ≤ 0xff then '\\' :: 'x' :: Numeral.paddedHex 2 c.toNat
  else if c.toNat ≤ 0xffff then '\\' :: 'u' :: Numeral.paddedHex 4 c.toNat
  else '\\' :: 'U' :: Numeral.paddedHex 8 c.toNat

/-- A character as it is written between two marks. -/
def escapeQuoted (mark c : Char) : List Char :=
  if c == mark || c == '\\' then ['\\', c]
  else if c == '\n' then ['\\', 'n']
  else if c == '\r' then ['\\', 'r']
  else if c == '\t' then ['\\', 't']
  else if isPrintable c then [c]
  else escapeCodePoint c

def quoted (text : String) : String :=
  let mark := quoteMark text.toList
  String.ofList (mark :: text.toList.flatMap (escapeQuoted mark) ++ [mark])

end RegisterMap.Text
