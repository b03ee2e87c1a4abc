import RegisterMap.Document.Loading
import RegisterMap.Fragment.Basic

/-!
# Appending registers to a document

A register is appended by putting its fragment at the end of the text of a document, which is then
loaded again as a whole.
-/

namespace RegisterMap

/-- Why a register could not be appended. -/
inductive AppendError where
  | groupRequired
  | template (error : AddressTemplate.Error)
  | load (error : LoadError)
  deriving Repr

def AppendError.message : AppendError → String
  | groupRequired => "register group is required for a document with register groups"
  | template error => error.message
  | load error => error.message

namespace Fragment

/-- The header of registers of a document, which is that of a group if the document has groups. -/
def header (m : Model) (group : Option String) : Except AppendError String :=
  match m.isGrouped, group with
  | false, _ => .ok "register"
  | true, some group => .ok s!"register.{group}"
  | true, none => .error .groupRequired

/-- The text of the fragment of a register for a document. -/
def render (m : Model) (r : Register) (group : Option String) : Except AppendError String := do
  let header ← header m group
  let fragment ← (ofRegister m.description r).mapError .template
  return fragment.text header

/-- A text that ends with a line feed, unless it is empty. -/
def endLine (text : String) : String :=
  if text.isEmpty || text.toList.getLast? = some '\n' then text else text ++ "\n"

/-- The text of a document with a register appended, and its content. -/
def append (text : String) (m : Model) (r : Register) (group : Option String) :
    Except AppendError (String × Model) := do
  let text := endLine text ++ (← render m r group)
  let model ← (Model.load text none).outcome.mapError .load
  return (text, model)

end Fragment

end RegisterMap
