import RegisterMap.Text.Pieces

/-!
# Names

The names of entities are identifiers over the letters and digits of ASCII and the underscore.
-/

namespace RegisterMap.Name

/-- Whether a character may start a name. -/
def isStart (c : Char) : Bool := c.isAlpha || c == '_'

/-- Whether a character may follow in a name. -/
def isFollowing (c : Char) : Bool := c.isAlphanum || c == '_'

def isWord : List Char → Bool
  | [] => false
  | c :: rest => isStart c && rest.all isFollowing

/-- Whether a text is accepted as a name: an identifier, possibly before a final line feed. -/
def isIdentifier (name : String) : Bool := isWord (Text.beforeFinalBreak name.toList)

end RegisterMap.Name
