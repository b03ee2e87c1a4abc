import RegisterMap.Accessor.Module
import RegisterMap.Command.Directory
import RegisterMap.Command.Log
import RegisterMap.Command.Request
import RegisterMap.Document.Loading
import RegisterMap.Listing.Summary

/-!
# Responses

The response to a request follows from the content of its file. It says what to print and which
file to write, and a log tells how it went. Some requests fail without a response.
-/

namespace RegisterMap.Command

/-! ### Failures -/

/-- Why a request has no response. -/
inductive Failure where
  | code (error : Accessor.Error)
  | file (error : FileError) (path : String)
  | missingName
  | missingPath
  deriving Repr, DecidableEq

def Failure.message : Failure → String
  | code error => error.message
  | file error path => error.message path
  | missingName => "expected string or bytes-like object, got 'list'"
  | missingPath => "expected str, bytes or os.PathLike object, not list"

/-! ### Responses -/

/-- A file that is to be written. -/
structure OutputFile where
  path : String
  text : String
  deriving Repr, DecidableEq

/-- The response to a request: an exit status, a text to print, and a file to write if there is
one. -/
structure Response where
  status : Nat
  output : String
  log : Log
  file : Option OutputFile
  deriving Repr, DecidableEq

namespace Response

def print (output : String) (log : Log) : Response := ⟨0, output, log, none⟩

/-- Give up with an error. -/
def fail (message : String) (log : Log) : Response := ⟨1, "", log ++ [.failure message], none⟩

/-- Give up over a file, if the system told why. -/
def giveUp (e : FileError) (path : String) (log : Log) : Except Failure Response :=
  if e.code?.isSome then .ok (fail (e.message path) log) else .error (.file e path)

/-- The response after an attempt to write its file. -/
def afterWriting (r : Response) (path : String) : Except FileError Unit → Except Failure Response
  | .ok _ => .ok { r with log := r.log ++ [.ofMilestone (.written path)] }
  | .error e => giveUp e path r.log

end Response

/-! ### Names of modules -/

def fileName (path : List Char) : List Char :=
  (path.reverse.takeWhile (· != '/')).reverse

/-- A file name without its extension, which starts at the last dot that has anything other than
dots before it. -/
def withoutExtension (name : List Char) : List Char :=
  match (name.reverse.dropWhile (· != '.')).drop 1 with
  | [] => name
  | stem => if stem.all (· == '.') then name else stem.reverse

namespace Request

/-- The name of a generated module. If it is not given, it comes from the file for the module or
else from the document. -/
def moduleNameFor (r : Request) (d : Description) : Except Failure String :=
  match r.moduleName, r.output with
  | .given name, _ => .ok name
  | .missing, _ => .error .missingName
  | .unset, .given path => .ok (String.ofList (withoutExtension (fileName path.toList)))
  | .unset, .missing => .error .missingPath
  | .unset, .unset => .ok (Name.snake d.name)

/-! ### Actions -/

/-- The line that tells that a document is valid. -/
def validLine (r : Request) (m : Model) : String :=
  let count := m.allRegisters.length
  let plural := if count = 1 then "" else "s"
  s!"{r.path}: register description '{m.description.name}' is valid, {count} register{plural}\n"

def generate (r : Request) (m : Model) (log : Log) : Except Failure Response := do
  let name ← r.moduleNameFor m.description
  if !Name.isIdentifier name then return .fail s!"invalid module name '{name}'" log
  let log := log ++ .ofReport (Accessor.milestones m name)
  let text ← (Accessor.generate m name).mapError .code
  match r.output with
  | .unset => return .print text log
  | .missing => throw .missingPath
  | .given path => return ⟨0, "", log, some ⟨path, text⟩⟩

/-- Take the action of a request on a document. -/
def perform (r : Request) (m : Model) (log : Log) : Except Failure Response :=
  match r.action with
  | .validate => .ok (.print (r.validLine m) log)
  | .summarize => .ok (.print (Listing.summary r.isHeaderShown r.withFields m) log)
  | .generate => r.generate m log

/-- The response to a request, given the content of its file. -/
def respond (r : Request) (content : Except FileError ByteArray) : Except Failure Response :=
  match content with
  | .error e => Response.giveUp e r.path [.ofMilestone (.loading r.path)]
  | .ok bytes =>
    let loaded := Model.loadFile r.path bytes
    let log := Log.ofReport loaded.report
    match loaded.outcome with
    | .ok m => r.perform m log
    | .error e@(.malformed _) => .ok (.fail e.message log)
    | .error e@(.problems ds) =>
      .ok ⟨1, Diagnostic.render ds ++ "\n", log ++ [.refusal e.message], none⟩

end Request

end RegisterMap.Command
