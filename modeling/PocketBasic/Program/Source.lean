import PocketBasic.Program.Statement
import PocketBasic.Text.Lines

/-! # Program source

A source text is read line by line. Blank lines and comments say nothing; `repeat` and `next` nest,
and everything between them is the body of one loop. The first line at fault is reported; a
loop that is never closed is found only at the end, and the innermost one is reported.
-/

namespace PocketBasic.Source

open Text

/-- The part of a line before its comment, which starts at the first `#` outside double
    quotes. -/
def withoutComment (quoted : Bool) : List Char → List Char
  | [] => []
  | c :: rest =>
      if c = '#' && !quoted then []
      else c :: withoutComment (if c = '"' then !quoted else quoted) rest

/-- What a line says: its text without comment and without blanks around it. -/
def content (line : List Char) : List Char :=
  trim (withoutComment false line)

/-- A loop whose foot has not come yet: its head, and what stood before it, last first. -/
structure OpenLoop where
  origin : Origin
  count : Nat
  before : List Instruction

/-- The open loops, innermost first, and the instructions of the innermost body, last first. -/
structure Draft where
  loops : List OpenLoop
  current : List Instruction

namespace Draft

/-- Nothing read yet. -/
def empty : Draft := ⟨[], []⟩

/-- Adds the statement of a line. -/
def add (draft : Draft) (origin : Origin) : Statement → Except LineFault Draft
  | .act action => .ok { draft with current := .act origin action :: draft.current }
  | .head count => .ok ⟨⟨origin, count, draft.current⟩ :: draft.loops, []⟩
  | .foot =>
      match draft.loops with
      | [] => .error .nextWithoutRepeat
      | loop :: loops =>
          .ok ⟨loops, .loop loop.origin loop.count draft.current.reverse :: loop.before⟩

/-- The program, if no loop is open. -/
def finish (draft : Draft) : Except ScriptError (List Instruction) :=
  match draft.loops with
  | [] => .ok draft.current.reverse
  | loop :: _ => .error ⟨loop.origin.line, .repeatWithoutNext⟩

end Draft

/-- Adds one line, which has the given index. -/
def addLine (draft : Draft) (index : Nat) (line : List Char) : Except ScriptError Draft :=
  let text := content line
  if text.isEmpty then .ok draft
  else
    (do draft.add ⟨index, byteLength (trimEnd line)⟩ (← Statement.read text) : Except LineFault Draft)
      |>.mapError fun fault => ⟨index, fault⟩

/-- Adds lines, the first of which has the given index. -/
def addLines (draft : Draft) (index : Nat) : List (List Char) → Except ScriptError Draft
  | [] => .ok draft
  | line :: rest => do addLines (← addLine draft index line) (index + 1) rest

/-- Reads a program. -/
def read (source : List Char) : Except ScriptError (List Instruction) := do
  (← addLines .empty 0 (lines source)).finish

end PocketBasic.Source
