import RegisterMap.Check.Document
import RegisterMap.Toml.Document

/-!
# Loading documents

A document is loaded from its text, or from the bytes of a file. It may fail to be a document of
the format at all, or it may be one that has problems.
-/

namespace RegisterMap

/-- Why a document could not be loaded. The source is the name of the file, if there is one. -/
inductive LoadError where
  | malformed (source : Option String)
  | problems (diagnostics : List Diagnostic)
  deriving Repr

/-! ### Texts of errors -/

/-- The text of an error that is made of details: a single one stands alone. -/
def detailsText : List String → String
  | [] => ""
  | [detail] => detail
  | details => "(" ++ String.intercalate ", " (details.map Text.quoted) ++ ")"

/-- The text of an error in a document, after the name of its source if there is one. -/
def sourcedText (source : Option String) (details : List String) : String :=
  (source.map fun source => s!"{source}: {detailsText details}").getD (detailsText details)

/-- The text of a reason why a document could not be loaded. -/
def LoadError.message : LoadError → String
  | malformed source => sourcedText source ["not a well-formed document"]
  | problems ds => Diagnostic.failureText ds none

/-! ### Files -/

/-- A text in which every line ends with a line feed. -/
def unifyBreaks : List Char → List Char
  | '\r' :: '\n' :: rest => '\n' :: unifyBreaks rest
  | '\r' :: rest => '\n' :: unifyBreaks rest
  | c :: rest => c :: unifyBreaks rest
  | [] => []

def textOfBytes? (bytes : ByteArray) : Option String :=
  (String.fromUTF8? bytes).map fun text => String.ofList (unifyBreaks text.toList)

namespace Model

/-! ### Loading -/

def load (text : String) (source : Option String) : Checked (Except LoadError Model) :=
  match Toml.readDocument? text with
  | none => ⟨.error (.malformed source), []⟩
  | some root =>
    let checked := check root
    { outcome := match checked.outcome with
        | some model => .ok model
        | none => .error (.problems checked.report.diagnostics)
      report := checked.report }

/-- Load a document from the bytes of a file. -/
def loadFile (path : String) (bytes : ByteArray) : Checked (Except LoadError Model) :=
  let checked : Checked (Except LoadError Model) := match textOfBytes? bytes with
    | none => ⟨.error (.malformed (some path)), []⟩
    | some text => load text (some path)
  ⟨checked.outcome, .milestone (.loading path) :: checked.report⟩

end Model

end RegisterMap
