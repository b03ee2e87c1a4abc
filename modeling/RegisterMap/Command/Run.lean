import RegisterMap.Command.Response

/-!
# Running command lines

A command line is run on a directory of files. What comes of it is an answer, and the directory
afterwards, which differs from the one before by one file at most.
-/

namespace RegisterMap.Command

/-- What is printed, what is told about the work, and the exit status. -/
structure Answer where
  status : Nat
  output : String
  errors : String
  deriving Repr, DecidableEq

def usage : String :=
  "usage: regdesc [-h] [-V] (validate | check | generate | gen | info) [OPTIONS] FILE\n"

/-- The answer to a command line that asks for no work. -/
def Reply.answer : Reply → Answer
  | help => ⟨0, usage, ""⟩
  | version => ⟨0, Command.version ++ "\n", ""⟩
  | noCommand => ⟨1, usage, ""⟩
  | misuse => ⟨2, "", usage⟩

/-- The answer that a response makes with a verbosity. -/
def Response.answer (r : Response) (verbosity : Int) : Answer :=
  ⟨r.status, r.output, r.log.text verbosity⟩

/-- The answer to a request for work on a directory, and the directory afterwards. -/
def Request.run (r : Request) (d : Directory) : Except Failure (Answer × Directory) := do
  let response ← r.respond (d.read r.path)
  match response.file with
  | none => return (response.answer r.verbosity, d)
  | some file =>
    let written := d.write file.path file.text.toUTF8
    let response ← response.afterWriting file.path (written.map fun _ => ())
    return (response.answer r.verbosity, written.toOption.getD d)

/-- The answer to a command line, and the directory afterwards. -/
def run (words : List String) (d : Directory) : Except Failure (Answer × Directory) :=
  match Request.ofWords words with
  | .ok request => request.run d
  | .error reply => .ok (reply.answer, d)

end RegisterMap.Command
