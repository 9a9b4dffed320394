import PocketBasic.Screen
import PocketBasic.Terminal.Input

/-! # Text fields

A text field edits one line of text. When the text is longer than the field is wide, the field
scrolls so that the cursor stays in it; a cursor behind the last character takes a cell of its own.
-/

namespace PocketBasic

/-- What a view makes of an event. -/
inductive EventResult where
  | consumed
  | ignored
  /-- A text field wants the keyboard. -/
  | focus
  /-- A text field got Enter. -/
  | submit
  /-- A key of the handset was pressed with the mouse. -/
  | keyDown (code : UInt8)
  /-- A key of the handset was released. -/
  | keyUp (code : UInt8)
  deriving Repr, DecidableEq

namespace EventResult

/-- The event goes no further. -/
def isConsumed : EventResult → Bool
  | .ignored => false
  | _ => true

end EventResult

/-- A text, the cursor in it and the first character in view. -/
structure TextField where
  text : List Char
  cursor : Nat
  scroll : Nat
  focused : Bool
  deriving Repr, DecidableEq

namespace TextField

/-- An empty field that does not have the keyboard. -/
def empty : TextField := ⟨[], 0, 0, false⟩

/-- A field with a text and the cursor behind it. -/
def withText (f : TextField) (text : List Char) : TextField :=
  { f with text, cursor := text.length, scroll := 0 }

/-- Inserts a character at the cursor. -/
def insertChar (f : TextField) (c : Char) : TextField :=
  { f with text := f.text.insertIdx f.cursor c, cursor := f.cursor + 1 }

/-- Inserts a text at the cursor, without its line breaks. -/
def insertText (f : TextField) (text : List Char) : TextField :=
  let typed := text.filter fun c => c ≠ '\r' ∧ c ≠ '\n'
  { f with
    text := f.text.take f.cursor ++ (typed ++ f.text.drop f.cursor)
    cursor := f.cursor + typed.length }

/-- Removes the character before the cursor. -/
def backspace (f : TextField) : TextField :=
  if f.cursor = 0 then f
  else { f with text := f.text.eraseIdx (f.cursor - 1), cursor := f.cursor - 1 }

/-- Removes the character at the cursor. -/
def delete (f : TextField) : TextField :=
  { f with text := f.text.eraseIdx f.cursor }

/-- The field after an editing key, or `none` when the key is not one. -/
def edit? (f : TextField) : Input → Option TextField
  | .char c => some (f.insertChar c)
  | .backspace => some f.backspace
  | .delete => some f.delete
  | .cursorLeft => some { f with cursor := f.cursor - 1 }
  | .cursorRight => some { f with cursor := min (f.cursor + 1) f.text.length }
  | .home => some { f with cursor := 0 }
  | .end => some { f with cursor := f.text.length }
  | _ => none

/-- Scrolls as little as brings the cursor into a field of the given width. -/
def showCursor (f : TextField) (width : Nat) : TextField :=
  if width = 0 then f
  else if f.cursor < f.scroll then { f with scroll := f.cursor }
  else if f.scroll + (width - 1) < f.cursor then { f with scroll := f.cursor - (width - 1) }
  else f

/-- Handles a click: in the field it moves the cursor and asks for the keyboard. -/
def click (f : TextField) (input : Input) (bounds : CellRect) : EventResult × TextField :=
  match input with
  | .click row col =>
      if bounds.contains row col then
        (.focus, { f with cursor := min (f.scroll + (col - bounds.x)) f.text.length })
      else (.ignored, f)
  | _ => (.ignored, f)

/-- Handles an event. Keys go to the field only while it has the keyboard. -/
def handle (f : TextField) (input : Input) (bounds : CellRect) : EventResult × TextField :=
  if f.focused then
    if input = .enter then (.submit, f)
    else
      match f.edit? input with
      | some f => (.consumed, f.showCursor bounds.width)
      | none => f.click input bounds
  else f.click input bounds

/-- The character in view at an index; behind the text there are blanks. -/
def charAt (f : TextField) (index : Nat) : Char := f.text[index]?.getD ' '

/-- Draws the part of the text in view, with the cursor in colors of its own. -/
def draw (f : TextField) (s : Screen) (bounds : CellRect) : Screen :=
  if bounds.height = 0 then s
  else
    (List.range bounds.width).foldl (fun s i =>
      let index := f.scroll + i
      let (fg, bg) : Color × Color :=
        if f.focused && index = f.cursor then (.cyan, .black) else (.black, .cyan)
      s.set bounds.y (bounds.x + i) (f.charAt index) fg bg) s

end TextField

end PocketBasic
