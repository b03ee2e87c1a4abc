import RegisterMap.Text.Pattern

/-!
# The pattern of words

A word is found in a name as a match of one of four alternatives, of which the first that matches
is taken: an acronym in front of a capitalized word, small letters with perhaps a capital before
them, capitals, and digits. Digits may stand after letters.
-/

namespace RegisterMap.Name

open Text (Pattern)

def beforeCapitalized : Pattern := .before (.seq (.char Char.isUpper) (.char Char.isLower))

def acronym : Pattern := .seq (.many1 Char.isUpper) beforeCapitalized

/-- Letters of one case, perhaps with digits after them. -/
def letters (p : Char → Bool) : Pattern := .seq (.many1 p) (.many Char.isDigit)

def wordPattern : Pattern :=
  .alt acronym <| .alt (.seq (.optional (.char Char.isUpper)) (letters Char.isLower)) <|
    .alt (letters Char.isUpper) (.many1 Char.isDigit)

end RegisterMap.Name
