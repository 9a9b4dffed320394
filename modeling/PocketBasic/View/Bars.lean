import PocketBasic.Lifecycle
import PocketBasic.Screen

/-! # Toolbar and status line -/

namespace PocketBasic

/-- A number with leading characters up to a width. -/
def padNumber (width : Nat) (pad : Char) (n : Nat) : List Char :=
  let ds := Nat.toDigits 10 n
  List.replicate (width - ds.length) pad ++ ds

namespace Toolbar

/-- The items: key, label and whether it can be used now. -/
def items (t : Toolbar) (tooltip : Option String) : List (String × String × Bool) :=
  [("F5", t.start.label, tooltip.isNone), ("F6", "Variables", t.inspectorEditable),
    ("F7", "Stop", t.stopEnabled), ("^W", "Close", true), ("^R", "Reload", true),
    ("^Q", "Quit", true)]

/-- Draws items from a column on. -/
def drawItems (s : Screen) (row col : Nat) : List (String × String × Bool) → Screen
  | [] => s
  | (key, label, enabled) :: rest =>
      let s := s.write row col key .red .lightGray
      let s := s.write row (col + key.length + 1) label (if enabled then .black else .darkGray)
        .lightGray
      drawItems s row (col + (key.length + label.length + 3)) rest

/-- Draws the toolbar. A tooltip stands on the right and says why nothing can be started. -/
def draw (t : Toolbar) (s : Screen) (tooltip : Option String) (bounds : CellRect) : Screen :=
  let s := s.fill bounds.y bounds.x bounds.width 1 ' ' .black .lightGray
  let s := drawItems s bounds.y (bounds.x + 1) (t.items tooltip)
  match tooltip with
  | some tip =>
      s.write bounds.y (bounds.x + (bounds.width - (tip.utf8ByteSize + 1))) tip .red .lightGray
  | none => s

end Toolbar

namespace StatusLine

/-- The words for a state. -/
def stateText : Lifecycle → String
  | .stopped => " Stopped "
  | .started => " Running... "
  | .paused => " Paused "

/-- Draws the status line: the state, a hint in the middle and the number of the cursor's line on
    the right. `line` counts from zero. -/
def draw (s : Screen) (state : Lifecycle) (hint : Option String) (line : Nat) (bounds : CellRect) :
    Screen :=
  let row := bounds.y
  let s := s.fill row bounds.x bounds.width 1 ' ' .white .cyan
  let s := s.write row bounds.x (stateText state) .white .cyan
  let s := match hint with
    | some hint =>
        s.write row (bounds.x + (bounds.width - hint.utf8ByteSize) / 2) hint .black .cyan
    | none => s
  let number := padNumber 5 '0' (line + 1) ++ [' ']
  s.writeChars row (bounds.x + (bounds.width - number.length)) .black .cyan number

end StatusLine

end PocketBasic
