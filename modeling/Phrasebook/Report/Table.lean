import Phrasebook.Text.Split
import Phrasebook.Text.Width

/-!
Tables for the terminal: a frame around the whole, a double line under the heading, and nothing but
blanks between the columns. A cell may have several lines; each column is as wide as its widest
line.
-/

namespace Phrasebook

structure Table where
  heading : List String
  rows : List (List String)

namespace Table

def cellLines (cell : String) : List String :=
  (Text.fields '\n' cell.toList).map String.ofList

def cellWidth (cell : String) : Nat :=
  ((cellLines cell).map Text.width).foldl max 0

/-- The width of each column, under the widths of the rows before. -/
def widths (rows : List (List String)) : List Nat :=
  rows.foldl (fun found row => List.zipWith max found (row.map cellWidth))
    ((rows.headD []).map cellWidth)

def padded (width : Nat) (line : String) : String :=
  let fill := String.ofList (List.replicate (width - Text.width line) ' ')
  " " ++ line ++ fill ++ " "

/-- One line on the terminal for every line of the highest cell. -/
def rowLines (columns : List Nat) (row : List String) : List String :=
  let cells := row.map cellLines
  let height := (cells.map List.length).foldl max 0
  (List.range height).map fun index =>
    let parts := List.zipWith (fun width lines => padded width (lines.getD index "")) columns cells
    "│" ++ " ".intercalate parts ++ "│"

def rule (columns : List Nat) (left stroke right : Char) : String :=
  let room := columns.foldl (fun total width => total + width + 2) (columns.length - 1)
  String.ofList (left :: List.replicate room stroke ++ [right])

def lines (table : Table) : List String :=
  let columns := widths (table.heading :: table.rows)
  [rule columns '┌' '─' '┐'] ++ rowLines columns table.heading ++ [rule columns '╞' '═' '╡'] ++
    table.rows.flatMap (rowLines columns) ++ [rule columns '└' '─' '┘']

def render (table : Table) : String := "\n".intercalate table.lines

end Table

end Phrasebook
