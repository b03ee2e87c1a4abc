import RegisterMap.Text.Pieces

/-!
# The words of a name

A name is a sequence of words, set apart by underscores and by changes of case. A run of capitals
is one word, an acronym, except that the last capital before a small letter starts the next word.
Digits belong to the letters before them.
-/

namespace RegisterMap.Name

/-- Whether a word goes on from `c` to the next character. -/
def joins (c : Char) : List Char → Bool
  | [] => false
  | d :: rest =>
    if c.isUpper then
      d.isLower || d.isDigit || (d.isUpper && !rest.head?.any Char.isLower)
    else if c.isLower then d.isLower || d.isDigit
    else d.isDigit

/-- The words of a name. Characters other than letters and digits only set them apart. -/
def words : List Char → List (List Char)
  | [] => []
  | c :: rest =>
    if !c.isAlphanum then words rest
    else if joins c rest then Text.grow c (words rest)
    else [c] :: words rest

end RegisterMap.Name
