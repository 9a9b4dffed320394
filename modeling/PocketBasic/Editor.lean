import PocketBasic.Engine.Outcome
import PocketBasic.Program.Instruction
import PocketBasic.Terminal.Input
import PocketBasic.Text.Blank
import PocketBasic.Text.Lines

/-! # Program pane

Shows the loaded program beside the simulator. The text is edited elsewhere; here it is scrolled,
and the error of the current run is shown on the piece of text it is about.
-/

namespace PocketBasic

/-- A message about a piece of the program. -/
structure Mark where
  span : Span
  message : String
  deriving Repr, DecidableEq

/-- The lines of a program file, the line with the cursor and the first line in view. -/
structure Editor where
  path : String
  lines : List (List Char)
  cursor : Nat
  scroll : Nat
  mark : Option Mark
  /-- The mark says why the program could not be read. -/
  compileFailed : Bool
  lineNumbers : Bool
  deriving Repr, DecidableEq

namespace Editor

/-- Why nothing can be started. -/
def compileErrorTooltip : String := "file has errors, cannot run"

/-- Lines that a turn of the wheel scrolls. -/
def wheelLines : Nat := 3

/-- The lines of a text, of which there is at least one. -/
def linesOf (source : String) : List (List Char) :=
  match Text.lines source.toList with
  | [] => [[]]
  | lines => lines

/-- A pane with a program. -/
def ofSource (path source : String) (lineNumbers : Bool) : Editor :=
  { path, lines := linesOf source, cursor := 0, scroll := 0, mark := none,
    compileFailed := false, lineNumbers }

/-- Index of the last line. -/
def last (e : Editor) : Nat := e.lines.length - 1

/-- Replaces the text after the file was read again, and drops what was said about the old one. -/
def reload (e : Editor) (source : String) : Editor :=
  let e := { e with lines := linesOf source, mark := none, compileFailed := false }
  { e with cursor := min e.cursor e.last }

/-- The last part of the path, or the whole path when that is no name of a file. -/
def name (e : Editor) : String :=
  let parts := (Text.splitAll (· = '/') e.path.toList).filter fun p => p ≠ [] ∧ p ≠ ['.']
  match parts.getLast? with
  | none => e.path
  | some part => if part = ['.', '.'] then e.path else String.ofList part

/-- The text, with single line feeds between the lines. -/
def source (e : Editor) : String := String.ofList (Text.joinLines e.lines)

/-- Shows a fault of the running program and puts the cursor on it. -/
def showFault (e : Editor) (fault : RunFault) : Editor :=
  { e with cursor := min fault.span.line e.last, mark := some ⟨fault.span, fault.message⟩ }

/-- Shows why the program cannot be read, on the whole faulty line. -/
def showScriptError (e : Editor) (line : Nat) (message : String) : Editor :=
  let width := match e.lines[line]? with
    | some text => Text.byteLength text
    | none => 0
  { e with
    cursor := min line e.last
    mark := some ⟨⟨line, 0, width⟩, message⟩
    compileFailed := true }

/-- Drops a mark that says why the program cannot be read. -/
def clearScriptError (e : Editor) : Editor :=
  if e.compileFailed then { e with compileFailed := false, mark := none } else e

def clearMark (e : Editor) : Editor :=
  { e with mark := none }

/-- Why the program cannot be started, if so. -/
def tooltip? (e : Editor) : Option String :=
  if e.compileFailed then some compileErrorTooltip else none

/-- Scrolls as little as brings the cursor into a view of so many rows. -/
def showCursor (e : Editor) (rows : Nat) : Editor :=
  if rows = 0 then e
  else if e.cursor < e.scroll then { e with scroll := e.cursor }
  else if e.scroll + rows ≤ e.cursor then { e with scroll := e.cursor + 1 - rows }
  else e

/-- Moves the cursor into a line and the view to the cursor. -/
def moveTo (e : Editor) (line rows : Nat) : Editor :=
  { e with cursor := line }.showCursor rows

/-- The pane after a navigation key or a turn of the wheel, or `none` for any other event. -/
def navigate? (e : Editor) (rows : Nat) : Input → Option Editor
  | .cursorUp => some (e.moveTo (e.cursor - 1) rows)
  | .cursorDown => some (e.moveTo (min (e.cursor + 1) e.last) rows)
  | .pageUp => some (e.moveTo (e.cursor - max rows 1) rows)
  | .pageDown => some (e.moveTo (min (e.cursor + max rows 1) e.last) rows)
  | .home => some (e.moveTo 0 rows)
  | .end => some (e.moveTo e.last rows)
  | .scrollUp _ _ => some { e with scroll := e.scroll - wheelLines }
  | .scrollDown _ _ =>
      some { e with scroll := min (e.scroll + wheelLines) (e.lines.length - rows) }
  | _ => none

end Editor

end PocketBasic
