import ScriptTyping.Text.Width

/-!
# Boxed tables

Draws a header and rows of cells as a box of lines. Each column is as wide as its widest line, each
cell has a blank on either side, and a cell of several lines makes its whole row that high.
-/

namespace ScriptTyping.Listing

/-- A line of a cell. -/
abbrev Line := List Char

/-- The lines of a cell: its text, broken at each line feed. -/
def linesOf (cell : String) : List Line :=
  cell.toList.splitOn '\n'

/-- Cells under a header. -/
structure Grid where
  header : List String
  rows : List (List String)

/-- The greatest width of some lines. -/
def widest (ls : List Line) : Nat :=
  (ls.map Text.width).foldl max 0

/-- The widths of the columns of rows with `n` cells each. -/
def columnWidths (n : Nat) (rows : List (List (List Line))) : List Nat :=
  (List.range n).map fun i => widest (rows.flatMap fun row => row.getD i [])

/-- A line filled up with blanks to a width, with a blank on either side. -/
def padded (width : Nat) (l : Line) : Line :=
  ' ' :: (l ++ List.replicate (width - Text.width l) ' ' ++ [' '])

/-- A line across the box: its left end, what fills each column, what parts two columns, and its
right end. -/
structure Border where
  left : Char
  fill : Char
  joint : Char
  right : Char

namespace Border

/-- Above the header. -/
def top : Border := ⟨'┌', '─', '┬', '┐'⟩

/-- Under the header. -/
def underHeader : Border := ⟨'╞', '═', '╪', '╡'⟩

/-- Between two rows. -/
def between : Border := ⟨'├', '╌', '┼', '┤'⟩

/-- Under the last row. -/
def bottom : Border := ⟨'└', '─', '┴', '┘'⟩

/-- A border drawn across columns of these widths. -/
def draw (r : Border) (widths : List Nat) : Line :=
  r.left :: ([r.joint].intercalate (widths.map fun w => List.replicate (w + 2) r.fill) ++ [r.right])

end Border

/-- One line of a row, given the line of each cell. -/
def drawLine (widths : List Nat) (ls : List Line) : Line :=
  '│' :: (['┆'].intercalate (List.zipWith padded widths ls) ++ ['│'])

/-- The lines of a row; a cell with fewer lines than others is filled up with empty ones. -/
def drawRow (widths : List Nat) (row : List (List Line)) : List Line :=
  let height := (row.map List.length).foldl max 0
  (List.range height).map fun i => drawLine widths (row.map fun cell => cell.getD i [])

namespace Grid

/-- The lines of a grid. -/
def lines (g : Grid) : List Line :=
  let header := g.header.map linesOf
  let rows := g.rows.map (List.map linesOf)
  let widths := columnWidths header.length (header :: rows)
  [Border.top.draw widths] ++ drawRow widths header ++ [Border.underHeader.draw widths] ++
    [Border.between.draw widths].intercalate (rows.map (drawRow widths)) ++
    [Border.bottom.draw widths]

/-- A grid as a text without a line end after its last line. -/
def text (g : Grid) : String :=
  String.ofList (['\n'].intercalate g.lines)

end Grid

end ScriptTyping.Listing
