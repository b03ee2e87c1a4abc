import RegisterMap.Document.Value
import RegisterMap.Toml.Moment
import RegisterMap.Toml.Number
import RegisterMap.Toml.Text

/-!
# Values in a TOML document

A key may have several parts between dots, which lead through nested tables. Besides scalars there
are arrays, and inline tables. What an entry of an inline table holds is closed: no later key leads
into it.
-/

namespace RegisterMap

namespace Table

/-- Replace the value of a key. -/
def set (t : Table) (key : String) (value : Value) : Table :=
  t.map fun (k, v) => if k = key then (k, value) else (k, v)

/-- Change the table at the end of a path, which is created if need be. Where `throughArrays`
holds, a path goes on in the last item of an array of tables. -/
def updateAt? (throughArrays : Bool) (change : Table → Option Table) :
    List String → Table → Option Table
  | [], t => change t
  | key :: keys, t =>
    match t.get? key with
    | none => (updateAt? throughArrays change keys []).map fun inner => t ++ [(key, .table inner)]
    | some (.table inner) =>
      (updateAt? throughArrays change keys inner).map fun inner => t.set key (.table inner)
    | some (.array items) =>
      match throughArrays, items.getLast? with
      | true, some (.table inner) =>
        (updateAt? throughArrays change keys inner).map fun inner =>
          t.set key (.array (items.dropLast ++ [.table inner]))
      | _, _ => none
    | some _ => none

/-- Add a key that is not present yet. -/
def addNew? (key : String) (value : Value) (t : Table) : Option Table :=
  if t.has key then none else some (t ++ [(key, value)])

end Table

namespace Toml

/-! ### Keys -/

/-- The parts of a key, of which there is at least one. -/
structure Key where
  parents : List String
  last : String
  deriving Repr, DecidableEq

/-- All parts of a key. -/
def Key.path (k : Key) : List String := k.parents ++ [k.last]

/-- Whether a character may stand in a key without quotes. -/
def isBareKeyChar (c : Char) : Bool := c.isAlphanum || c == '-' || c == '_'

def readKeyPart : Reader String
  | '\'' :: rest => (readLiteral rest).map fun (value, rest) => (String.ofList value, rest)
  | '"' :: rest => (readBasic rest).map fun (value, rest) => (String.ofList value, rest)
  | text =>
    let part := text.takeWhile isBareKeyChar
    if part.isEmpty then none else some (String.ofList part, text.dropWhile isBareKeyChar)

/-- Read a key and the white space after it. -/
def readKey : Nat → Reader Key
  | 0, _ => none
  | fuel + 1, text => do
    let (part, text) ← readKeyPart text
    match skipSpaces text with
    | '.' :: rest => (readKey fuel (skipSpaces rest)).map fun (key, rest) =>
        ({ key with parents := part :: key.parents }, rest)
    | rest => return (⟨[], part⟩, rest)

/-! ### Values -/

/-- Read a value that holds no other values. -/
def readScalar : Reader Value
  | '"' :: '"' :: '"' :: rest => (readMultiline '"' rest).map ofText
  | '"' :: rest => (readBasic rest).map ofText
  | '\'' :: '\'' :: '\'' :: rest => (readMultiline '\'' rest).map ofText
  | '\'' :: rest => (readLiteral rest).map ofText
  | 't' :: 'r' :: 'u' :: 'e' :: rest => some (.boolean true, rest)
  | 'f' :: 'a' :: 'l' :: 's' :: 'e' :: rest => some (.boolean false, rest)
  | text =>
    match readMoment text with
    | some (moment, rest) => some (.moment moment, rest)
    | none =>
      (readNumber text).map fun
        | (.integer n, rest) => (.integer n, rest)
        | (.float x, rest) => (.float x, rest)
where
  /-- The value of the characters that were read. -/
  ofText : List Char × List Char → Value × List Char
    | (text, rest) => (.text (String.ofList text), rest)

/-- Whether a value holds other values. -/
def isContainer : Value → Bool
  | .array _ => true
  | .table _ => true
  | _ => false

/-- Whether a path leads to or through one of the closed paths. -/
def isClosed (closed : List (List String)) (path : List String) : Bool :=
  closed.any (·.isPrefixOf path)

mutual

/-- Read a value. The fuel bounds the depth and the number of values. -/
def readValue : Nat → Reader Value
  | 0, _ => none
  | fuel + 1, '[' :: rest =>
    (readItems fuel rest).map fun (items, rest) => (.array items, rest)
  | fuel + 1, '{' :: rest =>
    match skipSpaces rest with
    | '}' :: rest => some (.table [], rest)
    | rest => (readEntries fuel [] [] rest).map fun (entries, rest) => (.table entries, rest)
  | _ + 1, text => readScalar text

/-- Read the items of an array after its opening bracket or after a comma. -/
def readItems : Nat → Reader (List Value)
  | 0, _ => none
  | fuel + 1, text =>
    match skipFiller false text with
    | none => none
    | some (']' :: rest) => some ([], rest)
    | some text => do
      let (item, text) ← readValue fuel text
      let text ← skipFiller false text
      match text with
      | ']' :: rest => return ([item], rest)
      | ',' :: rest => (readItems fuel rest).map fun (items, rest) => (item :: items, rest)
      | _ => none

/-- Read further entries of an inline table, beside those that it has. -/
def readEntries : Nat → Table → List (List String) → Reader Table
  | 0, _, _, _ => none
  | fuel + 1, entries, closed, text => do
    let (key, text) ← readKey (text.length + 1) text
    match text with
    | '=' :: text =>
      let (value, text) ← readValue fuel (skipSpaces text)
      if isClosed closed key.path then none
      else
        let entries ← entries.updateAt? false (Table.addNew? key.last value) key.parents
        let closed := if isContainer value then key.path :: closed else closed
        match skipSpaces text with
        | '}' :: rest => return (entries, rest)
        | ',' :: rest => readEntries fuel entries closed (skipSpaces rest)
        | _ => none
    | _ => none

end

end Toml

end RegisterMap
