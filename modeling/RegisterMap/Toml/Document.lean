import RegisterMap.Toml.Value

/-!
# TOML documents

A document is a sequence of statements, each on a line of its own: an entry, the header of a
table, or the header of a further table of an array. A table has one header at most, and tables
that come of a key with several parts have none; inline values are closed.
-/

namespace RegisterMap.Toml

/-- A document as read so far. Paths lead through the last item of an array of tables. -/
structure Draft where
  root : Table
  /-- The table that entries go into. -/
  header : List String
  /-- The paths that have or can no more have a header. -/
  declared : List (List String)
  /-- The paths that are declared from the next header on. -/
  pending : List (List String)
  /-- The paths of inline values. -/
  closed : List (List String)
  deriving Repr

namespace Draft

def empty : Draft := ⟨[], [], [], [], []⟩

/-- Let the paths that are pending count as declared. -/
def settle (d : Draft) : Draft := { d with declared := d.pending ++ d.declared, pending := [] }

/-- Add an entry to the table of the last header. -/
def addEntry? (d : Draft) (key : Key) (value : Value) : Option Draft := do
  let parents := (List.range key.parents.length).map fun n => d.header ++ key.parents.take (n + 1)
  let table := d.header ++ key.parents
  if parents.any (d.declared.contains ·) || isClosed d.closed table then none
  else
    let root ← d.root.updateAt? true (Table.addNew? key.last value) table
    return { d with
      root
      pending := parents ++ d.pending
      closed := if isContainer value then (table ++ [key.last]) :: d.closed else d.closed }

/-- Start a table. -/
def startTable? (d : Draft) (key : Key) : Option Draft := do
  let d := d.settle
  if d.declared.contains key.path || isClosed d.closed key.path then none
  else
    let root ← d.root.updateAt? true some key.path
    return { d with root, header := key.path, declared := key.path :: d.declared }

/-- Append an empty table to the array of a key, which may be new. -/
def appendTable? (key : String) (t : Table) : Option Table :=
  match t.get? key with
  | none => some (t ++ [(key, .array [.table []])])
  | some (.array items) => some (t.set key (.array (items ++ [.table []])))
  | some _ => none

/-- Start a further table of an array. What was said of the paths below it held for the table
before. -/
def startItem? (d : Draft) (key : Key) : Option Draft := do
  let d := d.settle
  if isClosed d.closed key.path then none
  else
    let root ← d.root.updateAt? true (appendTable? key.last) key.parents
    let isOutside (path : List String) : Bool := !key.path.isPrefixOf path
    return { d with
      root
      header := key.path
      declared := key.path :: d.declared.filter isOutside
      closed := d.closed.filter isOutside }

end Draft

/-- Read one statement, or none at the end of a line. -/
def readStatement (d : Draft) (text : List Char) : Option (Draft × List Char) :=
  match text with
  | '[' :: '[' :: rest => do
    let (key, rest) ← readKey (rest.length + 1) (skipSpaces rest)
    match rest with
    | ']' :: ']' :: rest => return (← d.startItem? key, rest)
    | _ => none
  | '[' :: rest => do
    let (key, rest) ← readKey (rest.length + 1) (skipSpaces rest)
    match rest with
    | ']' :: rest => return (← d.startTable? key, rest)
    | _ => none
  | [] => some (d, text)
  | '\n' :: _ => some (d, text)
  | '#' :: _ => some (d, text)
  | text => do
    let (key, rest) ← readKey (text.length + 1) text
    match rest with
    | '=' :: rest =>
      let (value, rest) ← readValue (rest.length + 1) (skipSpaces rest)
      return (← d.addEntry? key value, rest)
    | _ => none

/-- Read the statements of a document. Each takes at least one character, so the length of the text
is fuel enough. -/
def readStatements : Nat → Draft → List Char → Option Table
  | 0, _, _ => none
  | _ + 1, d, [] => some d.root
  | fuel + 1, d, text => do
    let (d, text) ← readStatement d (skipSpaces text)
    readStatements fuel d (← skipLineEnd text)

/-- The table of a document, if its text is well formed. -/
def readDocument? (text : String) : Option Table :=
  let text := normalizeBreaks text.toList
  readStatements (text.length + 1) .empty text

end RegisterMap.Toml
