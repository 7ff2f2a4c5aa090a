import Latency.Text.Blank
import Latency.Text.Escape
/-!
# Tables

A plain table: a header, a line of dashes and the rows, in columns two spaces apart. Cells are
aligned to the left; a cell with line breaks makes its row several lines high. Escape sequences of
terminals take no room. A row may ask for a line of dashes in its place.
-/

namespace Latency.Table

structure Layout where
  tall : Bool
  escapes : Bool

def ruleMark : String := "\x01"

def isRule (row : List String) : Bool :=
  (row.take 2).any fun cell => Text.trim cell == ruleMark

def isLineEnd (c : Char) : Bool := c == '\n' || c == '\r'

def Layout.ofCells (cells : List String) : Layout where
  tall := cells.any fun c => c.toList.any isLineEnd
  escapes := Text.hasEscape ("\t".intercalate cells).toList

namespace Layout

def width (l : Layout) (piece : List Char) : Nat :=
  if l.escapes then Text.shownWidth piece else piece.length

def pieces (l : Layout) (cell : String) : List (List Char) :=
  let trimmed := (Text.trim cell).toList
  if l.tall then trimmed.splitOnP isLineEnd else [trimmed]

/-- The lines of a cell. When no cell of the table has a line break, each is one line as it is. -/
def lines (l : Layout) (cell : String) : List String :=
  if l.tall then Text.splitLines (Text.trim cell) else [Text.trim cell]

/-- The lines of a cell, padded to a width. What takes no room in a piece is added to the width of
the line that has its number. -/
def padded (l : Layout) (width : Nat) (cell : String) : List String :=
  if l.escapes then
    ((l.lines cell).zip (l.pieces cell)).map fun x =>
      Text.padRight (width + x.2.length - l.width x.2) x.1
  else (l.lines cell).map (Text.padRight width)

end Layout

structure Column where
  width : Nat
  cells : List (List String)

/-- The column of cells under a header, which is two characters wider than the header at least. -/
def Layout.column (l : Layout) (header : String) (cells : List String) : Column :=
  let least := header.length + 2
  let widest := ((cells.flatMap l.pieces).map l.width).foldl max least
  let lines := cells.map (l.padded widest)
  ⟨((lines.flatten).map fun s => l.width s.toList).foldl max least, lines⟩

def joinCells (cells : List String) : String :=
  let cs := ("  ".intercalate cells).toList
  String.ofList (cs.reverse.dropWhile Text.isBlank).reverse

def rowLines (cells : List (Nat × List String)) : List String :=
  let height := (cells.map (·.2.length)).foldl max 0
  (List.range height).map fun i =>
    joinCells (cells.map fun c => c.2.getD i (Text.padRight c.1 ""))

/-- The lines of rows, of which those that asked for it are lines of dashes; `number` counts the
others. -/
def bodyLines (rule : String) (columns : List Column) (number : Nat) :
    List (List String) → List String
  | [] => []
  | row :: rest =>
    if isRule row then rule :: bodyLines rule columns number rest
    else
      rowLines (columns.map fun c => (c.width, c.cells.getD number [])) ++
        bodyLines rule columns (number + 1) rest

def render (headers : List String) (rows : List (List String)) : String :=
  let plain := rows.filter fun row => !isRule row
  let layout := Layout.ofCells (headers ++ plain.flatten)
  let cells (i : Nat) : List String := plain.map fun row => row.getD i ""
  let columns := headers.zipIdx.map fun h => layout.column h.1 (cells h.2)
  let head := joinCells ((headers.zip columns).map fun h => Text.padRight h.2.width h.1)
  let rule := "  ".intercalate (columns.map fun c => String.ofList (List.replicate c.width '-'))
  "\n".intercalate (head :: rule :: bodyLines rule columns 0 rows)

end Latency.Table
