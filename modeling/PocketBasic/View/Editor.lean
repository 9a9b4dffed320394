import PocketBasic.Editor
import PocketBasic.Screen
import PocketBasic.View.Bars

/-! # Drawing the program pane -/

namespace PocketBasic.EditorView

/-- Cells before a line for its number. -/
def gutterWidth : Nat := 5

/-- Lines in view inside the frame. -/
def rows (bounds : CellRect) : Nat := bounds.height - 2

/-- The bytes of a line that a mark covers; at least one. -/
def markedBytes (mark : Option Mark) (line : Nat) : Option (Nat × Nat) :=
  match mark with
  | some a =>
      if a.span.line = line then some (a.span.start, max a.span.stop (a.span.start + 1)) else none
  | none => none

/-- Draws the characters of a line. `byte` is the offset of the first of them in the line. -/
def drawChars (s : Screen) (row col byte : Nat) (marked : Option (Nat × Nat)) (bg : Color) :
    List Char → Screen
  | [] => s
  | c :: rest =>
      let isMarked := match marked with
        | some (start, stop) => decide (start ≤ byte) && decide (byte < stop)
        | none => false
      let (fg, cellBg) : Color × Color := if isMarked then (.white, .red) else (.yellow, bg)
      drawChars (s.set row col c fg cellBg) row (col + 1) (byte + c.utf8Size) marked bg rest

/-- Draws a line of the program in one row of the inside of the frame. -/
def drawLine (e : Editor) (s : Screen) (content : CellRect) (row line : Nat) (text : List Char) :
    Screen :=
  let gutter := if e.lineNumbers then gutterWidth else 0
  let width := content.width - gutter
  let bg : Color := if line = e.cursor then .cyan else .blue
  let s :=
    if e.lineNumbers then
      s.writeChars row content.x .lightGray .blue (padNumber 4 ' ' (line + 1) ++ [' '])
    else s
  let s := s.fill row (content.x + gutter) width 1 ' ' .yellow bg
  drawChars s row (content.x + gutter) 0 (markedBytes e.mark line) bg (text.take width)

/-- Draws the pane: a frame with the file's name, the lines in view, and the message of a mark
    on the bottom of the frame. -/
def draw (e : Editor) (s : Screen) (bounds : CellRect) : Screen :=
  if bounds.width < 3 ∨ bounds.height < 3 then s
  else
    let s := s.box bounds.y bounds.x bounds.width bounds.height .white .blue
    let title := " " ++ e.name ++ " "
    let x := bounds.x + (bounds.width - Screen.columnsOf title) / 2
    let s := s.write bounds.y x title .blue .white
    let content := bounds.inset 1
    let s := (((e.lines.drop e.scroll).take content.height).zipIdx 0).foldl
      (fun s (text, r) => drawLine e s content (content.y + r) (e.scroll + r) text) s
    match e.mark with
    | some a =>
        let text := " line " ++ toString (a.span.line + 1) ++ ": " ++ a.message ++ " "
        s.writeChars (bounds.y + bounds.height - 1) content.x .white .red
          (text.toList.take content.width)
    | none => s

end PocketBasic.EditorView
