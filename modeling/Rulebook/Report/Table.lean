import Rulebook.Text.Width

/-!
# Tables in boxes

A table has a row of headings and rows of cells, drawn in a box with round corners and
with a line under the headings. Each column is as wide as its widest line, with a space on
either side. A cell may have several lines; they stand at the top of the row.

* `Rulebook.Table` – a table;
* `Rulebook.Table.render` – its drawing. A table without rows ends with the line under the
  headings.
-/

namespace Rulebook

/-- A table. All rows have as many cells as there are headings. -/
structure Table where
  /-- The headings. -/
  headings : List String
  /-- The rows. -/
  rows : List (List String)
deriving DecidableEq, Repr

namespace Table

/-- The lines of a cell. -/
def lines (cell : String) : List String := cell.splitOn "\n"

/-- The columns that a cell takes. -/
def cellWidth (cell : String) : Nat := ((lines cell).map Text.width).foldl max 0

/-- So many spaces. -/
def spaces (n : Nat) : String := String.ofList (List.replicate n ' ')

/-- A line of a cell with so much room on its left, in a column of a width. -/
def inColumn (left width : Nat) (line : String) : String :=
  " " ++ spaces left ++ line ++ spaces (width - left - Text.width line) ++ " "

/-- The room on the left of a cell that stands in the middle of its column. If it cannot be
the same on both sides there is more on the right. -/
def middle (width : Nat) (cell : String) : Nat := (width - cellWidth cell) / 2

/-- The widths of the columns. -/
def widths (t : Table) : List Nat :=
  t.rows.foldl (fun ws row => List.zipWith (fun w cell => max w (cellWidth cell)) ws row)
    (t.headings.map cellWidth)

/-- A line across the table between its outer marks. -/
def rule (left across joint right : String) (widths : List Nat) : String :=
  left ++
    joint.intercalate (widths.map fun w => String.join (List.replicate (w + 2) across)) ++ right

/-- One line of a row: that line of each cell, if the cell has so many. -/
def rowLine (room : Nat → String → Nat) (widths : List Nat) (cells : List String) (i : Nat) :
    String :=
  "│" ++
    "│".intercalate
      (List.zipWith (fun w cell => inColumn (room w cell) w (((lines cell)[i]?).getD "")) widths
        cells) ++
    "│"

/-- The lines of a row. -/
def rowLines (room : Nat → String → Nat) (widths : List Nat) (cells : List String) :
    List String :=
  let height := (cells.map fun cell => (lines cell).length).foldl max 1
  (List.range height).map (rowLine room widths cells)

/-- **The drawing of a table.** -/
def render (t : Table) : String :=
  let ws := t.widths
  "\n".intercalate <|
    [rule "╭" "─" "┬" "╮" ws] ++ rowLines middle ws t.headings ++ [rule "├" "─" "┼" "┤" ws] ++
      -- Only the headings stand in the middle of their columns.
      t.rows.flatMap (rowLines (fun _ _ => 0) ws) ++
      (if t.rows.isEmpty then [] else [rule "╰" "─" "┴" "╯" ws])

end Table

end Rulebook
