import RegisterMap.Text.Quoted

/-!
# Directories of files

A directory holds files below it by the names on the way to them. A path leads to a place in the
directory or outside of it, where a file may be read or written.
-/

namespace RegisterMap.Command

/-! ### Errors -/

/-- Why a file could not be read or written. -/
inductive FileError where
  | notFound
  | notDirectory
  | isDirectory
  | nameTooLong
  | nullInPath
  | other (number : Nat) (words : String)
  deriving Repr, DecidableEq

namespace FileError

/-- The number and the words of the system for an error. The system is not asked for a path with
a null character. -/
def code? : FileError → Option (Nat × String)
  | notFound => some (2, "No such file or directory")
  | notDirectory => some (20, "Not a directory")
  | isDirectory => some (21, "Is a directory")
  | nameTooLong => some (36, "File name too long")
  | nullInPath => none
  | other number words => some (number, words)

/-- The text of an error with a path. -/
def message (e : FileError) (path : String) : String :=
  match e.code? with
  | some (number, words) => s!"[Errno {number}] {words}: {Text.quoted path}"
  | none => "embedded null byte"

end FileError

/-! ### Places -/

/-- A place by the names on the way to it, from the directory at hand or from the root of all
directories. -/
inductive Place where
  | below (names : List String)
  | outside (names : List String)
  deriving Repr, DecidableEq

/-- The names from the root to where the directory at hand is. -/
def Place.parentNames : List String := ["tmp"]

/-- The place that a name leads to from a directory. Nothing lies above the root. -/
def Place.next (place : Place) (name : String) : Place :=
  match place with
  | below names =>
    if name ≠ ".." then below (names ++ [name])
    else if names.isEmpty then outside parentNames
    else below names.dropLast
  | outside names => outside (if name ≠ ".." then names ++ [name] else names.dropLast)

/-- The way that a path describes: names to follow from a place. An empty name leads nowhere
else, but only from a directory. -/
structure Route where
  start : Place
  names : List String
  deriving Repr, DecidableEq

/-- The longest path in bytes. -/
def maxPathSize : Nat := 4095

/-- The longest name of a file in bytes. -/
def maxNameSize : Nat := 255

/-- The way that a path describes. -/
def Route.ofPath (path : String) : Except FileError Route :=
  let chars := path.toList
  if chars.contains '\x00' then .error .nullInPath
  else if chars.isEmpty then .error .notFound
  else if maxPathSize < path.utf8ByteSize then .error .nameTooLong
  else
    let start := if chars.head? = some '/' then .outside [] else .below []
    .ok ⟨start, (chars.splitOn '/').map String.ofList⟩

/-- The way to the directory that holds what is at the end of a way. -/
def Route.holder (route : Route) : Route :=
  let names := (route.names.reverse.dropWhile (· = "")).drop 1
  { route with names := names.reverse ++ ["."] }

/-- A directory by the content of the files below it. -/
structure Directory where
  files : List (List String × ByteArray)

/-- What is at a place. -/
inductive Entry where
  | file (content : ByteArray)
  | directory

namespace Directory

/-- The names of the directories below the root. -/
def standardNames : List String :=
  ["bin", "boot", "dev", "etc", "home", "lib", "media", "mnt", "opt", "proc", "root", "run", "sbin",
   "srv", "sys", "tmp", "usr", "var"]

/-- What is at a place. There is a directory wherever something is below. Of the places outside
only the standard ones are known. -/
def entry? (d : Directory) : Place → Option Entry
  | .below names =>
    match d.files.lookup names with
    | some content => some (.file content)
    | none =>
      if names.isEmpty || d.files.any (fun f => names.isPrefixOf f.1) then some .directory else none
  | .outside [] => some .directory
  | .outside [name] => if name ∈ standardNames then some .directory else none
  | .outside names => if names = ["dev", "null"] then some (.file .empty) else none

/-- The place that a name leads to. -/
def step (d : Directory) (place : Place) (name : String) : Except FileError Place :=
  match d.entry? place with
  | none => .error .notFound
  | some (.file _) => .error .notDirectory
  | some .directory =>
    if name = "" ∨ name = "." then .ok place
    else if maxNameSize < name.utf8ByteSize then .error .nameTooLong
    else .ok (place.next name)

/-- The place that a way leads to. -/
def follow (d : Directory) (route : Route) : Except FileError Place :=
  route.names.foldlM d.step route.start

/-! ### Files -/

/-- The content of the file at the end of a path. -/
def read (d : Directory) (path : String) : Except FileError ByteArray := do
  match d.entry? (← d.follow (← Route.ofPath path)) with
  | some (.file content) => return content
  | some .directory => throw .isDirectory
  | none => throw .notFound

/-- Put content at a place, over what is there. What is put outside of the directory does not
change it. -/
def insert (d : Directory) (content : ByteArray) : Place → Directory
  | .below names => ⟨d.files.filter (·.1 ≠ names) ++ [(names, content)]⟩
  | .outside _ => d

/-- Write the file at the end of a path. A path with a slash at its end is that of a directory. -/
def write (d : Directory) (path : String) (content : ByteArray) : Except FileError Directory := do
  let route ← Route.ofPath path
  if route.names.getLast? = some "" then
    discard (d.follow route.holder)
    throw .isDirectory
  let place ← d.follow route
  match d.entry? place with
  | some .directory => throw .isDirectory
  | _ => return d.insert content place

/-- A directory with files at the ends of paths. -/
def ofFiles (files : List (String × ByteArray)) : Directory :=
  ⟨files.map fun (path, content) =>
    (((path.toList.splitOn '/').map String.ofList).filter (· ∉ ["", "."]), content)⟩

end Directory

end RegisterMap.Command
