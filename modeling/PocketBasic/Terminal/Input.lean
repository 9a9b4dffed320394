import PocketBasic.Terminal.Key

/-! # Input events

What the application is told about a key: a press, release or wheel turn of the mouse with its
place, a character, or one of the keys it knows.
-/

namespace PocketBasic

/-- An event of the keyboard or the mouse. -/
inductive Input where
  | click (row col : Nat)
  | release (row col : Nat)
  | scrollUp (row col : Nat)
  | scrollDown (row col : Nat)
  | char (c : Char)
  | cursorUp
  | cursorDown
  | cursorLeft
  | cursorRight
  | home
  | «end»
  | pageUp
  | pageDown
  | shiftSpace
  | ctrlSpace
  | enter
  | ctrlEnter
  | backspace
  | delete
  | tab
  | shiftTab
  | escape
  | function (n : Nat)
  /-- Paste. -/
  | ctrlV
  /-- Close the simulator. -/
  | ctrlW
  /-- Read the program again. -/
  | ctrlR
  /-- Quit. -/
  | ctrlQ
  | unknown
  deriving Repr, DecidableEq

/-- Commands that are reachable from anywhere. -/
inductive Command where
  /-- Open the simulator, start, pause or continue. -/
  | startPause
  /-- Move the keyboard to the inspector or back. -/
  | focusInspector
  | stop
  | closeSimulator
  | reload
  | quit
  deriving Repr, DecidableEq

namespace Input

/-- The event of a mouse report. Moves and the other buttons mean nothing. -/
def ofMouse (m : MouseReport) : Input :=
  match m.button, m.pressed, m.motion with
  | .left, true, false => .click m.row m.col
  | .left, false, _ => .release m.row m.col
  | .wheelUp, _, _ => .scrollUp m.row m.col
  | .wheelDown, _, _ => .scrollDown m.row m.col
  | _, _, _ => .unknown

/-- The event of a key. -/
def ofKey : Key → Input
  | .char c => .char c
  | .enter => .enter
  | .ctrlEnter => .ctrlEnter
  | .escape => .escape
  | .backspace => .backspace
  | .delete => .delete
  | .tab => .tab
  | .shiftTab => .shiftTab
  | .up => .cursorUp
  | .down => .cursorDown
  | .left => .cursorLeft
  | .right => .cursorRight
  | .home => .home
  | .end => .end
  | .pageUp => .pageUp
  | .pageDown => .pageDown
  | .shiftSpace => .shiftSpace
  | .ctrlSpace => .ctrlSpace
  | .function n => .function n
  | .ctrl 'v' => .ctrlV
  | .ctrl 'w' => .ctrlW
  | .ctrl 'r' => .ctrlR
  | .ctrl 'q' => .ctrlQ
  | .ctrl _ => .unknown
  | .mouse report => ofMouse report
  | .unknown _ => .unknown

/-- The place of a mouse event. -/
def position? : Input → Option (Nat × Nat)
  | .click row col => some (row, col)
  | .release row col => some (row, col)
  | .scrollUp row col => some (row, col)
  | .scrollDown row col => some (row, col)
  | _ => none

/-- The command bound to an event. The first four function keys belong to the device. -/
def command? : Input → Option Command
  | .function 5 => some .startPause
  | .function 6 => some .focusInspector
  | .function 7 => some .stop
  | .ctrlW => some .closeSimulator
  | .ctrlR => some .reload
  | .ctrlQ => some .quit
  | _ => none

end Input

end PocketBasic
