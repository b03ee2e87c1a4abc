import RegisterMap.Accessor.Docstring

/-!
# Code writers

A writer takes lines one after another at the current level of indentation, which a block raises
until it ends.
-/

namespace RegisterMap.Accessor

/-- The lines written so far, and the current level of indentation. -/
structure Writer where
  code : Code
  level : Nat
  deriving Repr, DecidableEq

namespace Writer

def empty : Writer := ⟨[], 0⟩

def add (w : Writer) (lines : Code) : Writer := { w with code := w.code ++ lines.indentBy w.level }

def line (w : Writer) (text : String) : Writer := w.add [text]

def lines (w : Writer) (text : String) : Writer := w.add (.ofText text)

def blank (w : Writer) (count : Nat) : Writer := w.add (.blank count)

def docstring (w : Writer) (text : String) : Except Error Writer :=
  (Accessor.docstring text).map w.add

/-- Go one level deeper. -/
def enter (w : Writer) : Writer := { w with level := w.level + 1 }

/-- Add a header and go one level deeper. -/
def openBlock (w : Writer) (header : String) : Writer := (w.line header).enter

/-- Go back by one level. -/
def leave (w : Writer) : Writer := { w with level := w.level - 1 }

/-- Drop the empty lines at the end. -/
def trim (w : Writer) : Writer := { w with code := w.code.trimmed }

end Writer

end RegisterMap.Accessor
