import RegisterMap.Command.Grammar

/-!
# Requests

A command line names an action, a file with a document, and options. It is a request for work on
the document, or else it is answered by itself: with help, with the version, or with a complaint.
-/

namespace RegisterMap.Command

def version : String := "0.1.0"

/-! ### Actions and options -/

/-- What can be done with a document. -/
inductive Action where
  | validate
  | generate
  | summarize
  deriving Repr, DecidableEq

def Action.ofName? : String → Option Action
  | "validate" | "check" => some validate
  | "generate" | "gen" => some generate
  | "info" => some summarize
  | _ => none

/-- The options before the name of an action. -/
inductive MainOption where
  | help
  | version
  deriving Repr, DecidableEq

/-- The options after the name of an action. -/
inductive ActionOption where
  | help
  | verbose
  | quiet
  | output
  | language
  | module
  | noHeader
  | fields
  deriving Repr, DecidableEq

/-- The grammar of the words up to the name of an action. -/
def mainGrammar : Grammar MainOption where
  options := [("-h", .help), ("--help", .help), ("-V", .version), ("--version", .version)]
  takesValue _ := false

def commonOptions : List (String × ActionOption) :=
  [("-h", .help), ("--help", .help), ("-v", .verbose), ("--verbose", .verbose), ("-q", .quiet),
   ("--quiet", .quiet)]

def Action.ownOptions : Action → List (String × ActionOption)
  | validate => []
  | generate =>
    [("-o", .output), ("--output", .output), ("-l", .language), ("--language", .language),
     ("--module", .module)]
  | summarize =>
    [("-H", .noHeader), ("--no-header", .noHeader), ("-f", .fields), ("--fields", .fields)]

/-- The grammar of the words after the name of an action. -/
def Action.grammar (a : Action) : Grammar ActionOption where
  options := commonOptions ++ a.ownOptions
  takesValue option := option ∈ [.output, .language, .module]

def languages : List String := ["python"]

/-! ### Requests -/

/-- A text that an option sets. The option may be left out, or lack its value. -/
inductive Setting where
  | unset
  | missing
  | given (text : String)
  deriving Repr, DecidableEq

/-- The setting by an option with its value, if there is one. -/
def Setting.ofValue : Option String → Setting
  | some text => given text
  | none => missing

/-- The work that is asked for, and how much is told about it. -/
structure Request where
  action : Action
  path : String
  verbosity : Int
  output : Setting
  moduleName : Setting
  isHeaderShown : Bool
  withFields : Bool
  deriving Repr, DecidableEq

/-- How a command line is answered that asks for no work. -/
inductive Reply where
  | help
  | version
  | noCommand
  | misuse
  deriving Repr, DecidableEq

/-- A request that may still lack its file. Words that nothing expects spoil it. -/
structure Draft where
  request : Request
  hasPath : Bool
  isSpoiled : Bool
  deriving Repr, DecidableEq

namespace Draft

/-- The draft of a request before any option. -/
def start (a : Action) : Draft where
  request :=
    { action := a, path := "", verbosity := 0, output := .unset, moduleName := .unset
      isHeaderShown := true, withFields := false }
  hasPath := false
  isSpoiled := false

def modify (d : Draft) (change : Request → Request) : Except Reply Draft :=
  .ok { d with request := change d.request }

/-- What a step of a command line makes of a draft. Of repeated options the last one counts, and
those on verbosity add up. -/
def follow (d : Draft) : Step ActionOption → Except Reply Draft
  | .misuse => .error .misuse
  | .extra _ | .command .. => .ok { d with isSpoiled := true }
  | .operand path => .ok { d with request.path := path, hasPath := true }
  | .option .help _ => .error .help
  | .option .verbose _ => d.modify fun r => { r with verbosity := r.verbosity + 1 }
  | .option .quiet _ => d.modify fun r => { r with verbosity := r.verbosity - 1 }
  | .option .output value => d.modify fun r => { r with output := .ofValue value }
  | .option .module value => d.modify fun r => { r with moduleName := .ofValue value }
  | .option .noHeader _ => d.modify fun r => { r with isHeaderShown := false }
  | .option .fields _ => d.modify fun r => { r with withFields := true }
  | .option .language value =>
    if value.all (· ∈ languages) then .ok d else .error .misuse

/-- What a finished draft asks for. -/
def finish (d : Draft) : Except Reply Request :=
  if d.hasPath && !d.isSpoiled then .ok d.request else .error .misuse

end Draft

namespace Request

/-- What the name of an action asks for with the words after it. -/
def ofAction (isSpoiled : Bool) (name : String) (words : List String) : Except Reply Request :=
  match Action.ofName? name with
  | none => .error .misuse
  | some a => do
    let draft := { Draft.start a with isSpoiled }
    (← (a.grammar.read .operand words).foldlM Draft.follow draft).finish

/-- What the steps up to the name of an action ask for. -/
def ofSteps (isSpoiled : Bool) : List (Step MainOption) → Except Reply Request
  | [] => .error (if isSpoiled then .misuse else .noCommand)
  | .misuse :: _ => .error .misuse
  | .option .help _ :: _ => .error .help
  | .option .version _ :: _ => .error .version
  | .command name words :: _ => ofAction isSpoiled name words
  | .operand _ :: steps | .extra _ :: steps => ofSteps true steps

def ofWords (words : List String) : Except Reply Request :=
  ofSteps false (mainGrammar.read .command words)

end Request

end RegisterMap.Command
