import RegisterMap.Text.Digit
import RegisterMap.Text.Pieces

/-!
# Grammars of command lines

A command line is read against a grammar of options. Words that start with a dash are options;
short options can share a word, long ones can be shortened, and a value may be attached to its
option. Other words are operands, and so is every word after a separator of two dashes. What is
read is a list of steps.
-/

namespace RegisterMap.Command

/-- The options of a command with their meanings. -/
structure Grammar (α : Type) where
  options : List (String × α)
  takesValue : α → Bool

/-! ### Kinds of words -/

/-- The word after which there are no options. -/
def separator : String := "--"

/-- What a word is. Text may be attached to an option in the same word. -/
inductive WordKind (α : Type) where
  | separator
  | operand
  | option (isShort : Bool) (meaning : α) (attachment : Option (List Char))
  | unknown
  deriving Repr

/-- A word together with what it is. -/
structure Word (α : Type) where
  text : String
  kind : WordKind α
  deriving Repr

/-- Whether a word is a negative number, possibly before a final line feed. -/
def isNegativeNumber (word : List Char) : Bool :=
  let isDecimal (c : Char) : Bool := (Text.decimalValue? c).isSome
  match Text.beforeFinalBreak word with
  | '-' :: number =>
    let whole := number.takeWhile isDecimal
    match number.dropWhile isDecimal with
    | [] => !whole.isEmpty
    | '.' :: fraction => !fraction.isEmpty && fraction.all isDecimal
    | _ => false
  | _ => false

/-- The part of a word up to an equals sign, and what is attached after the sign. -/
def cutAtEquals (word : List Char) : List Char × Option (List Char) :=
  match word.dropWhile (· != '=') with
  | _ :: value => (word.takeWhile (· != '='), some value)
  | [] => (word, none)

/-- Whether an option has the short form of its name. -/
def isShortName (name : List Char) : Bool := !(['-', '-'].isPrefixOf name)

namespace Grammar

variable {α : Type} (g : Grammar α)

/-- The options that a word may stand for, other than by its full name. -/
def interpretations (word : List Char) : List (WordKind α) :=
  match word with
  | '-' :: '-' :: _ =>
    let (start, attachment) := cutAtEquals word
    g.options.filterMap fun (name, meaning) =>
      if start.isPrefixOf name.toList then some (.option false meaning attachment) else none
  | _ =>
    g.options.filterMap fun (name, meaning) =>
      if name.toList = word.take 2 then some (.option true meaning (some (word.drop 2)))
      else if word.isPrefixOf name.toList then some (.option true meaning none)
      else none

/-- What a word is that is not after a separator. Nothing comes of a word that may stand for
several options. -/
def classify? (word : List Char) : Option (WordKind α) :=
  let (start, attachment) := cutAtEquals word
  if word.head? ≠ some '-' then some .operand
  else if let some meaning := g.options.lookup (String.ofList word) then
    some (.option (isShortName word) meaning none)
  else if word.length = 1 then some .operand
  else if let (true, some meaning) := (attachment.isSome, g.options.lookup (String.ofList start))
  then some (.option (isShortName start) meaning attachment)
  else
    match g.interpretations word with
    | [kind] => some kind
    | _ :: _ => none
    | [] => some (if isNegativeNumber word || word.contains ' ' then .operand else .unknown)

/-- What the words of a command line are. -/
def classifyAll? : List String → Option (List (Word α))
  | [] => some []
  | text :: texts =>
    if text = separator then some (⟨text, .separator⟩ :: texts.map (⟨·, .operand⟩))
    else do
      let kind ← g.classify? text.toList
      return ⟨text, kind⟩ :: (← classifyAll? texts)

end Grammar

/-! ### Steps -/

/-- What a command line does, step by step. An option may lack a value, even if it takes one.
Nothing is done after a misuse. -/
inductive Step (α : Type) where
  | option (meaning : α) (value : Option String)
  | operand (text : String)
  | command (name : String) (rest : List String)
  | extra (text : String)
  | misuse
  deriving Repr

/-- The steps of a word, and the option that needs the next word as its value if there is one. -/
structure WordSteps (α : Type) where
  steps : List (Step α)
  needsValue : Option α
  deriving Repr

/-- What a command line expects besides options. -/
inductive Expected where
  | command
  | operand
  | nothing
  deriving Repr, DecidableEq

/-- Drop a separator in front. -/
def dropSeparator {α : Type} : List (Word α) → List (Word α)
  | ⟨_, .separator⟩ :: words => words
  | words => words

theorem length_dropSeparator_le {α : Type} (words : List (Word α)) :
    (dropSeparator words).length ≤ words.length := by
  unfold dropSeparator
  split <;> simp

/-- The value in a text that is attached to an option. A separator is no value. -/
def attachedValue? (text : List Char) : Option String :=
  let value := String.ofList text
  if value = separator then none else some value

namespace Grammar

variable {α : Type} (g : Grammar α)

/-- The steps of an option that is a word by itself. -/
def soleSteps (meaning : α) : WordSteps α :=
  if g.takesValue meaning then ⟨[], some meaning⟩ else ⟨[.option meaning none], none⟩

/-- The steps of an option with text attached to it, which is its value, or else further short
options. -/
def attachedSteps? (isShort : Bool) (meaning : α) (text : List Char) : Option (WordSteps α) :=
  if g.takesValue meaning then some ⟨[.option meaning (attachedValue? text)], none⟩
  else
    match isShort, text with
    | true, c :: rest => do
      let next ← g.options.lookup (String.ofList ['-', c])
      let others ← if rest.isEmpty then some (g.soleSteps next) else attachedSteps? true next rest
      return { others with steps := .option meaning none :: others.steps }
    | _, _ => none

/-- The steps of an option. -/
def optionSteps? (isShort : Bool) (meaning : α) : Option (List Char) → Option (WordSteps α)
  | none => some (g.soleSteps meaning)
  | some text => g.attachedSteps? isShort meaning text

/-- The steps of words. A command takes all words after it. -/
def steps (expected : Expected) (words : List (Word α)) : List (Step α) :=
  match words with
  | [] => []
  | ⟨text, .unknown⟩ :: rest => .extra text :: steps expected rest
  | ⟨_, .option isShort meaning attachment⟩ :: rest =>
    match g.optionSteps? isShort meaning attachment, rest with
    | none, _ => [.misuse]
    | some ⟨found, none⟩, rest => found ++ steps expected rest
    | some ⟨found, some meaning⟩, ⟨value, .operand⟩ :: rest =>
      found ++ .option meaning (some value) :: steps expected rest
    | some ⟨_, some _⟩, _ => [.misuse]
  | ⟨text, .operand⟩ :: rest =>
    match expected with
    | .command => [.command text (rest.map Word.text)]
    | .operand => .operand text :: steps .nothing (dropSeparator rest)
    | .nothing => .extra text :: steps .nothing rest
  | ⟨text, .separator⟩ :: rest =>
    match expected, rest with
    | .command, _ :: _ => [.misuse]
    | .operand, ⟨value, .operand⟩ :: rest => .operand value :: steps .nothing rest
    | _, rest => .extra text :: steps expected rest
termination_by words.length
decreasing_by
  all_goals simp only [List.length_cons]
  all_goals try omega
  have := length_dropSeparator_le rest
  omega

def read (expected : Expected) (words : List String) : List (Step α) :=
  match g.classifyAll? words with
  | some words => g.steps expected words
  | none => [.misuse]

end Grammar

end RegisterMap.Command
