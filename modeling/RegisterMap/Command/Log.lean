import RegisterMap.Diagnostic.Report

/-!
# Logs

A log tells what happened during a command, one record for each event. The verbosity of a command
decides which records are shown.
-/

namespace RegisterMap.Command

inductive Level where
  | debug
  | info
  | error
  deriving Repr, DecidableEq

namespace Level

def name : Level → String
  | debug => "DEBUG"
  | info => "INFO"
  | error => "ERROR"

def rank : Level → Int
  | debug => 10
  | info => 20
  | error => 40

/-- The least rank of the records that are shown. Every step of verbosity shows one level more, and
records of the lowest level are always shown from the second step on. -/
def threshold (verbosity : Int) : Int := max debug.rank (30 - verbosity * 10)

end Level

/-- A record of a log. The topic tells which part of the work the record is about. -/
structure Record where
  level : Level
  topic : String
  message : String
  deriving Repr, DecidableEq

namespace Record

def line (r : Record) : String := s!"{r.level.name}:{r.topic}:{r.message}\n"

/-- The record of an error that ends a command. -/
def failure (message : String) : Record := ⟨.error, "regdesc.tool", message⟩

/-- The record of problems that end a command. The problems themselves are printed. -/
def refusal (message : String) : Record := ⟨.debug, "regdesc.tool", message⟩

def ofMilestone : Milestone → Record
  | .loading path =>
    ⟨.debug, "regdesc.validation.root", s!"loading register description from {path}"⟩
  | .description name version =>
    ⟨.debug, "regdesc.validation.description",
      s!"register description '{name}' version {version}"⟩
  | .enumeration name count capacity =>
    ⟨.debug, "regdesc.validation.semantic", s!"enum '{name}' has {count} of {capacity} values"⟩
  | .register name location bitFields enums =>
    ⟨.debug, "regdesc.validation.register",
      s!"register '{name}' at {location}, {bitFields} bit fields, {enums} enums"⟩
  | .document name registers =>
    ⟨.debug, "regdesc.validation.root",
      s!"validated register description '{name}' with {registers} registers"⟩
  | .module moduleName description =>
    ⟨.info, "regdesc.codegen.python",
      s!"generating module {moduleName} from register description '{description}'"⟩
  | .group title registers =>
    ⟨.debug, "regdesc.codegen.python", s!"generating {title} with {registers} registers"⟩
  | .accessor register className =>
    ⟨.debug, "regdesc.codegen.register", s!"generating register {register} as {className}"⟩
  | .written path => ⟨.info, "regdesc.subcommands.generate_cmd", s!"wrote {path}"⟩

def ofEvent : Event → Record
  | .problem d => ⟨.debug, "regdesc.validation.diagnostics", s!"diagnostic: {d}"⟩
  | .milestone m => ofMilestone m

end Record

/-- The records of a command, in order. -/
abbrev Log := List Record

namespace Log

def ofReport (r : Report) : Log := r.map Record.ofEvent

/-- The lines of a log that a verbosity shows. -/
def text (log : Log) (verbosity : Int) : String :=
  let isShown (r : Record) : Bool := Level.threshold verbosity ≤ r.level.rank
  String.join ((log.filter isShown).map Record.line)

end Log

end RegisterMap.Command
