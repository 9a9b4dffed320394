import PocketBasic.Handset.Keypad
import PocketBasic.View.TextField

/-! # On-screen keypad

The buttons of the handset, for the mouse. A press goes to the handset at once, and so does the
release, wherever the mouse is by then.
-/

namespace PocketBasic

/-- The button that the mouse holds down. -/
structure KeypadView where
  held : Option UInt8
  deriving Repr, DecidableEq

namespace KeypadView

/-- A keypad that is not touched. -/
def empty : KeypadView := ⟨none⟩

/-- Cells from one button to the next. -/
def buttonWidth : Nat := 7

/-- Columns and rows of the whole keypad. -/
def size : Nat × Nat := (buttonWidth * Keypad.colCount, Keypad.rowCount)

/-- The button at a cell. -/
def hit? (bounds : CellRect) (row col : Nat) : Option Keypad.Button :=
  if bounds.contains row col then
    Keypad.buttonAt? (row - bounds.y) ((col - bounds.x) / buttonWidth)
  else none

/-- Text in the middle of a field, or as it is when it is longer. The odd blank goes behind. -/
def centerText (width : Nat) (text : List Char) : List Char :=
  let pad := width - text.length
  List.replicate (pad / 2) ' ' ++ text ++ List.replicate (pad - pad / 2) ' '

/-- Draws a button. -/
def drawButton (s : Screen) (row col : Nat) (button : Keypad.Button) (down : Bool) : Screen :=
  let (fg, bg) : Color × Color := if down then (.white, .black) else (.black, .lightGray)
  s.writeChars row col fg bg (centerText (buttonWidth - 1) button.label.toList)

/-- Draws the buttons of one row from a column on. A button that does not fit ends the row. -/
def drawRow (s : Screen) (bounds : CellRect) (row : Nat) (isDown : UInt8 → Bool) (x : Nat) :
    List (Option Keypad.Button) → Screen
  | [] => s
  | none :: rest => drawRow s bounds row isDown (x + buttonWidth) rest
  | some button :: rest =>
      if bounds.x + bounds.width < x + buttonWidth then s
      else
        drawRow (drawButton s row x button (isDown button.code)) bounds row isDown
          (x + buttonWidth) rest

/-- Draws the rows that fit. Keys that the mouse or `isDown` holds show as pressed. -/
def draw (v : KeypadView) (s : Screen) (bounds : CellRect) (isDown : UInt8 → Bool) : Screen :=
  let isDown := fun code => v.held = some code || isDown code
  ((Keypad.buttons.take bounds.height).zipIdx bounds.y).foldl
    (fun s (row, y) => drawRow s bounds y isDown bounds.x row) s

/-- Handles an event of the mouse. -/
def handle (v : KeypadView) (input : Input) (bounds : CellRect) : EventResult × KeypadView :=
  match input with
  | .click row col =>
      match hit? bounds row col with
      | some button => (.keyDown button.code, ⟨some button.code⟩)
      | none => (.ignored, v)
  | .release _ _ =>
      match v.held with
      | some code => (.keyUp code, ⟨none⟩)
      | none => (.ignored, v)
  | _ => (.ignored, v)

end KeypadView

end PocketBasic
