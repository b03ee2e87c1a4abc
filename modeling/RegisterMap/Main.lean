import RegisterMap.Command.Run

/-!
# The program

The program reads the file of a request, and prints and writes what the response says.
-/

namespace RegisterMap.Command

/-- The error of a file that was met while the program ran. -/
def FileError.ofRuntime : IO.Error → FileError
  | .noFileOrDirectory .. => notFound
  | .inappropriateType _ 20 _ => notDirectory
  | .inappropriateType _ 21 _ => isDirectory
  | .invalidArgument _ 36 _ => nameTooLong
  | e => other 5 (toString e)

/-- The result of an action on a file. -/
def attempt {α : Type} (action : IO α) : IO (Except FileError α) :=
  try return .ok (← action) catch e => return .error (.ofRuntime e)

/-- Print an answer and return its status. -/
def Answer.display (a : Answer) : IO UInt32 := do
  (← IO.getStderr).putStr a.errors
  (← IO.getStdout).putStr a.output
  return a.status.toUInt32

/-- The response to a request for work on the files of the machine. -/
def Request.execute (r : Request) : IO (Except Failure Response) := do
  match r.respond (← attempt (IO.FS.readBinFile r.path)) with
  | .error e => return .error e
  | .ok response =>
    match response.file with
    | none => return .ok response
    | some file =>
      return response.afterWriting file.path (← attempt (IO.FS.writeFile file.path file.text))

/-- The answer to a request, which may have failed. -/
def Request.answer (r : Request) : Except Failure Response → Answer
  | .ok response => response.answer r.verbosity
  | .error e => ⟨1, "", e.message ++ "\n"⟩

end RegisterMap.Command

def main (words : List String) : IO UInt32 := do
  match RegisterMap.Command.Request.ofWords words with
  | .ok request => (request.answer (← request.execute)).display
  | .error reply => reply.answer.display
