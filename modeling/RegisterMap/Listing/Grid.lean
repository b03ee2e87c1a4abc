import RegisterMap.Text.Width

/-!
# Grids

A grid shows cells of text in aligned columns, possibly below a header with a rule. A cell may have
several lines.
-/

namespace RegisterMap.Listing

/-- Cells of text in rows, below the names of the columns if these are shown. -/
structure Grid where
  names : List String
  isHeaderShown : Bool
  rows : List (List String)
  deriving Repr, DecidableEq

def cellLines (cell : String) : List String := (cell.toList.splitOn '\n').map String.ofList

/-- The number of columns of a line. A line without a width counts as none. -/
def lineWidth (line : String) : Nat := (Text.width? line).getD 0

/-- The number of columns of the widest line of a cell. -/
def cellWidth (cell : String) : Nat := ((cellLines cell).map lineWidth).foldl max 0

/-- A line with spaces up to a number of columns, and one more if it has no width. -/
def pad (width : Nat) (line : String) : String :=
  let spaces := match Text.width? line with
    | some columns => width - columns
    | none => width + 1
  line ++ String.ofList (List.replicate spaces ' ')

def rowLine (widths : List Nat) (lines : List String) : String :=
  " " ++ String.join (List.zipWith (fun width line => " " ++ pad width line ++ "  ") widths lines)

/-- The lines of a row, of which cells with fewer lines leave the last ones empty. -/
def rowLines (widths : List Nat) (row : List String) : List String :=
  let cells := row.map cellLines
  let height := (cells.map List.length).foldl max 0
  (List.range height).map fun i => rowLine widths (cells.map fun lines => lines.getD i "")

namespace Grid

def widths (g : Grid) : List Nat :=
  let start := g.names.map fun name => if g.isHeaderShown then cellWidth name else 0
  let widen (width : Nat) (cell : String) : Nat := max width (cellWidth cell)
  g.rows.foldl (fun widths row => List.zipWith widen widths row) start

/-- The rule below the header. -/
def rule (g : Grid) : String :=
  String.ofList (List.replicate (g.widths.foldl (fun length width => length + width + 3) 1) '-')

def text (g : Grid) : String :=
  let header := if g.isHeaderShown then [rowLine g.widths g.names, g.rule] else []
  String.intercalate "\n" (header ++ g.rows.flatMap (rowLines g.widths))

end Grid

end RegisterMap.Listing
