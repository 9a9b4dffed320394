import PocketBasic.Screen
import PocketBasic.Text.Runs

/-! # Terminal grid

What a terminal shows after some output: a grid of cells, a cursor and the current colors. A
character printed in the last column leaves the cursor there, pending; the next one goes to the
start of the row below.
-/

namespace PocketBasic

/-- The state of a terminal. -/
structure Grid where
  width : Nat
  height : Nat
  cells : Vector Cell (width * height)
  row : Nat
  col : Nat
  fg : Color
  bg : Color
  cursorShown : Bool

namespace Grid

/-- A cleared terminal. -/
def blank (width height : Nat) : Grid :=
  { width, height, cells := .replicate _ .blank, row := 1, col := 1, fg := .lightGray, bg := .black,
    cursorShown := true }

/-- Prints a character at the cursor. A cursor behind the last column is pending. -/
def print (g : Grid) (c : Char) : Grid :=
  let (row, col) := if g.width < g.col then (g.row + 1, 1) else (g.row, g.col)
  let cell : Cell := ⟨c, g.fg, g.bg⟩
  { g with
    cells :=
      if row ≤ g.height then g.cells.setIfInBounds ((row - 1) * g.width + (col - 1)) cell
      else g.cells
    row, col := col + 1 }

/-- Carries out one operation. -/
def apply (g : Grid) : TerminalOp → Grid
  | .goto row col => { g with row, col }
  | .colors fg bg => { g with fg, bg }
  | .print c => g.print c
  | .showCursor => { g with cursorShown := true }
  | .hideCursor => { g with cursorShown := false }

/-- Carries out operations in turn. -/
def applyAll (g : Grid) (ops : List TerminalOp) : Grid :=
  ops.foldl apply g

/-- The cells, row by row. -/
def rows (g : Grid) : List (List Cell) := Cell.rows g.cells

/-- The text of each row. -/
def text (g : Grid) : List (List Char) :=
  g.rows.map fun row => row.map (·.ch)

/-- The colors of each row, as runs of equal parameters. -/
def colorRuns (g : Grid) : List (List (Nat × String)) :=
  g.rows.map fun row => runs (row.map fun c => Color.pairParameters c.fg c.bg)

/-- The text stands somewhere in the row. -/
def occursIn (text : List Char) : List Char → Bool
  | [] => text.isEmpty
  | c :: row => text.isPrefixOf (c :: row) || occursIn text row

/-- Some row shows the text. -/
def shows (g : Grid) (text : List Char) : Bool :=
  g.text.any (occursIn text)

end Grid

end PocketBasic
