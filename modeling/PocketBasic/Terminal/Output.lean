import PocketBasic.Terminal.Color

/-! # Terminal output

What the program writes to the terminal: printed characters, cursor moves and color changes, and
the sequences that switch the terminal over at the beginning and back at the end.
-/

namespace PocketBasic

/-- One thing written to the terminal. -/
inductive TerminalOp where
  /-- Move the cursor; rows and columns count from one. -/
  | goto (row col : Nat)
  | colors (fg bg : Color)
  | print (c : Char)
  | showCursor
  | hideCursor
  deriving Repr, DecidableEq

namespace TerminalOp

/-- Starts every control sequence. -/
def introducer : String := "\x1b["

/-- The characters of an operation. -/
def text : TerminalOp → String
  | .goto row col => introducer ++ toString row ++ ";" ++ toString col ++ "H"
  | .colors fg bg => introducer ++ Color.pairParameters fg bg ++ "m"
  | .print c => String.singleton c
  | .showCursor => introducer ++ "?25h"
  | .hideCursor => introducer ++ "?25l"

/-- The characters of operations in a row. -/
def render (ops : List TerminalOp) : String :=
  ops.foldl (fun out op => out ++ op.text) ""

end TerminalOp

namespace Terminal

/-- Switches to the alternate screen, hides the cursor, asks for mouse reports with decimal
    coordinates and for unambiguous keys, and clears the screen. -/
def enter : String :=
  "\x1b[?1049h\x1b[?25l\x1b[?1002h\x1b[?1006h\x1b[>1u\x1b[2J\x1b[H"

/-- Takes back what `enter` did. -/
def leave : String :=
  "\x1b[<u\x1b[?1006l\x1b[?1002l\x1b[?25h\x1b[0m\x1b[?1049l"

/-- The size to draw for when the terminal reports the given one. A terminal that reports no
    columns reports nothing. -/
def sizeOrStandard (width height : Nat) : Nat × Nat :=
  if width = 0 then (80, 25) else (width, height)

end Terminal

end PocketBasic
