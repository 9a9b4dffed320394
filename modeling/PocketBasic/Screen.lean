import PocketBasic.CellRect
import PocketBasic.Terminal.Output

/-! # Screen

A grid of cells that views draw into, and what of it the terminal is known to show. Flushing
writes only the cells in which the two differ. Rows and columns count from one, and drawing outside
the grid does nothing.
-/

namespace PocketBasic

/-- A character and its colors. -/
structure Cell where
  ch : Char
  fg : Color
  bg : Color
  deriving Repr, DecidableEq, Inhabited

namespace Cell

/-- A cell nothing was drawn into. -/
def blank : Cell := ⟨' ', .lightGray, .black⟩

/-- The rows of a grid of cells, which holds them one after the other. -/
def rows {width height : Nat} (cells : Vector Cell (width * height)) : List (List Cell) :=
  (List.range height).map fun y =>
    (cells.toArray.extract (y * width) ((y + 1) * width)).toList

end Cell

/-- The grid, row by row, and what the terminal shows of it. -/
structure Screen where
  width : Nat
  height : Nat
  back : Vector Cell (width * height)
  /-- What the terminal shows; `none` where that is not known. -/
  front : Vector (Option Cell) (width * height)
  cursor : Nat × Nat
  cursorVisible : Bool

namespace Screen

/-- Largest row and column there is. -/
def maxPosition : Nat := 65535

/-- The columns that a text is taken to fill. A count of columns goes no further than the largest
    column and then starts over. -/
def columnsOf (text : String) : Nat := text.length % (maxPosition + 1)

/-- A blank screen on a terminal of which nothing is known. -/
def blank (width height : Nat) : Screen :=
  { width, height, back := .replicate _ .blank, front := .replicate _ none, cursor := (1, 1),
    cursorVisible := false }

/-- Index of a cell in the grid. -/
def index? (s : Screen) (row col : Nat) : Option Nat :=
  if 1 ≤ row ∧ row ≤ s.height ∧ 1 ≤ col ∧ col ≤ s.width then
    some ((row - 1) * s.width + (col - 1))
  else none

/-- Draws one cell. -/
def set (s : Screen) (row col : Nat) (ch : Char) (fg bg : Color) : Screen :=
  match s.index? row col with
  | some i => { s with back := s.back.setIfInBounds i ⟨ch, fg, bg⟩ }
  | none => s

/-- The cell at a place. -/
def get? (s : Screen) (row col : Nat) : Option Cell :=
  s.index? row col |>.bind fun i => s.back[i]?

/-- The cells, row by row. -/
def rows (s : Screen) : List (List Cell) := Cell.rows s.back

/-- Draws characters from a place to the right, as far as the grid goes. -/
def writeChars (s : Screen) (row col : Nat) (fg bg : Color) : List Char → Screen
  | [] => s
  | c :: rest =>
      if col ≤ s.width then writeChars (s.set row col c fg bg) row (col + 1) fg bg rest else s

/-- Draws a text from a place to the right. -/
def write (s : Screen) (row col : Nat) (text : String) (fg bg : Color) : Screen :=
  s.writeChars row col fg bg text.toList

/-- The positions from `start` on, at most `count` of them, that are no further than `last`. -/
def span (start count last : Nat) : List Nat :=
  List.range' start (min (min (start + count) maxPosition) (last + 1) - start)

/-- Draws one character into every cell of an area. -/
def fill (s : Screen) (row col width height : Nat) (ch : Char) (fg bg : Color) : Screen :=
  (span row height s.height).foldl
    (fun s row => (span col width s.width).foldl (fun s col => s.set row col ch fg bg) s) s

/-- Blanks the grid. -/
def clear (s : Screen) (fg bg : Color) : Screen :=
  { s with back := .replicate _ ⟨' ', fg, bg⟩ }

/-- Draws a frame of single lines with blank cells inside. There is no frame of less than two
    rows and columns. -/
def box (s : Screen) (row col width height : Nat) (fg bg : Color) : Screen :=
  if width < 2 ∨ height < 2 then s
  else
    let bottom := row + height - 1
    let right := col + width - 1
    let s := s.fill row col width height ' ' fg bg
    let s := s.fill row (col + 1) (width - 2) 1 '─' fg bg
    let s := s.fill bottom (col + 1) (width - 2) 1 '─' fg bg
    let s := s.fill (row + 1) col 1 (height - 2) '│' fg bg
    let s := s.fill (row + 1) right 1 (height - 2) '│' fg bg
    let s := s.set row col '┌' fg bg
    let s := s.set row right '┐' fg bg
    let s := s.set bottom col '└' fg bg
    s.set bottom right '┘' fg bg

def setCursor (s : Screen) (row col : Nat) : Screen :=
  { s with cursor := (row, col) }

def setCursorVisible (s : Screen) (visible : Bool) : Screen :=
  { s with cursorVisible := visible }

/-- Forgets what the terminal shows. -/
def invalidate (s : Screen) : Screen :=
  { s with front := .replicate _ none }

/-- What the terminal's state is known to be while cells are written: the position behind the last
    cell and the colors set last. -/
structure Pen where
  next : Option Nat
  colors : Option (Color × Color)

/-- What has to be written for the cell at an index. The cursor is moved to the start of
    every row, since a terminal does not go on there by itself. -/
def cellOps (width : Nat) (pen : Pen) (i : Nat) (cell : Cell) : List TerminalOp :=
  (if pen.next ≠ some i ∨ i % width = 0 then [.goto (i / width + 1) (i % width + 1)] else []) ++
    (if pen.colors ≠ some (cell.fg, cell.bg) then [.colors cell.fg cell.bg] else []) ++
    [.print cell.ch]

/-- What has to be written for the cells from an index on. -/
def changes (width : Nat) (pen : Pen) (i : Nat) : List (Cell × Option Cell) → List TerminalOp
  | [] => []
  | (cell, shown) :: rest =>
      if shown = some cell then changes width pen (i + 1) rest
      else
        cellOps width pen i cell ++
          changes width ⟨some (i + 1), some (cell.fg, cell.bg)⟩ (i + 1) rest

/-- Where the cursor goes, and whether it is seen. -/
def cursorOps (s : Screen) : List TerminalOp :=
  if s.cursorVisible then [.goto s.cursor.1 s.cursor.2, .showCursor] else [.hideCursor]

/-- What has to be written to show the grid, and the screen once it is written. -/
def flush (s : Screen) : List TerminalOp × Screen :=
  (changes s.width ⟨none, none⟩ 0 (s.back.toList.zip s.front.toList) ++ s.cursorOps,
    { s with front := s.back.map some })

end Screen

end PocketBasic
