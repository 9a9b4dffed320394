import PocketBasic.Inspector
import PocketBasic.Lifecycle
import PocketBasic.View.TextField

/-! # Inspector panel

A framed list of the program's variables. Up and Down select, Enter expands an array or opens an
editor on the value, and Enter in the editor stores it. Escape closes the editor, and then gives the
keyboard back.
-/

namespace PocketBasic

/-- The list, the editor that is open on the selected row, and the error of the last commit. -/
structure InspectorPanel where
  model : Inspector
  editor : Option TextField
  error : Option String
  focused : Bool
  deriving Repr, DecidableEq

namespace InspectorPanel

/-- A panel that has shown nothing. -/
def empty : InspectorPanel := ⟨.empty, none, none, false⟩

/-- Rows of the panel: a frame, the list and a line for messages. -/
def height : Nat := 9

/-- Columns of the list for labels. -/
def labelWidth : Nat := 14

def closeEditor (p : InspectorPanel) : InspectorPanel :=
  { p with editor := none, error := none }

/-- Gives the keyboard to the panel or takes it away. A panel that is switched off does not get it,
    and without it no editor stays open. -/
def setFocus (p : InspectorPanel) (focused : Bool) : InspectorPanel :=
  let p := { p with focused := focused && p.model.enabled }
  if p.focused then p else p.closeEditor

/-- Switches the panel on or off. -/
def setEnabled (p : InspectorPanel) (enabled : Bool) (store : Store) : InspectorPanel :=
  let p := { p with model := p.model.setEnabled enabled store }
  if enabled then p else p.setFocus false

/-- Where the list stands. -/
def listRect (bounds : CellRect) : CellRect :=
  ⟨bounds.x + 1, bounds.y + 1, bounds.width - 2, bounds.height - 3⟩

/-- The first row in view. The selected row always is. -/
def firstVisible (p : InspectorPanel) (list : CellRect) : Nat :=
  p.model.selected + 1 - max list.height 1

/-- Where the value of a row stands. -/
def valueRect (p : InspectorPanel) (list : CellRect) (index : Nat) : CellRect :=
  ⟨list.x + labelWidth + 1, list.y + (index - p.firstVisible list), list.width - (labelWidth + 1), 1⟩

/-- Opens an editor on the selected value, if there is one. -/
def beginEdit (p : InspectorPanel) (store : Store) : InspectorPanel :=
  match p.model.editText store with
  | some text =>
      { p with
        editor := some { TextField.empty.insertText text.toList with focused := true }
        error := none }
  | none => p

/-- Expands or collapses the selected array, or opens an editor on the selected value. -/
def activate (p : InspectorPanel) (store : Store) : InspectorPanel :=
  match p.model.toggle store with
  | (true, model) => { p with model }
  | (false, model) => { p with model }.beginEdit store

/-- Selects a row. -/
def select (p : InspectorPanel) (index : Nat) : InspectorPanel :=
  { p with model := p.model.select index }

/-- A click on an existing row. The first one gives the panel the keyboard and selects; after that
    a click on the selected row acts on it. -/
def clickRow (p : InspectorPanel) (wasFocused : Bool) (index : Nat) (store : Store) :
    InspectorPanel :=
  if !wasFocused then p.select index
  else if index = p.model.selected then
    if p.editor.isSome then p else p.activate store
  else p.closeEditor.select index

/-- A click into the panel. -/
def click (p : InspectorPanel) (row col : Nat) (bounds : CellRect) (store : Store) :
    InspectorPanel :=
  let list := listRect bounds
  let wasFocused := p.focused
  let p := p.setFocus true
  if !p.focused || !list.contains row col then p
  else
    let index := p.firstVisible list + (row - list.y)
    if p.model.rows.length ≤ index then p else p.clickRow wasFocused index store

variable {σ : Type} [Engine σ]

/-- Stores the text of the editor. The editor closes if that succeeds. -/
def commit (p : InspectorPanel) (engine : σ) (text : List Char) : InspectorPanel × σ :=
  match p.model.commit engine text with
  | (none, model, engine) => ({ p with model }.closeEditor, engine)
  | (some e, model, engine) => ({ p with model, error := some e.message }, engine)

/-- A key while an editor is open. -/
def typeInto (p : InspectorPanel) (engine : σ) (field : TextField) (input : Input)
    (bounds : CellRect) : InspectorPanel × σ :=
  if input = .escape then (p.closeEditor, engine)
  else
    let rect := p.valueRect (listRect bounds) p.model.selected
    let (result, field) := field.handle input rect
    let p := { p with editor := some field }
    if result = .submit then p.commit engine field.text else (p, engine)

/-- The panel after a key while no editor is open, or `none` when the key means nothing. -/
def navigate? (p : InspectorPanel) (store : Store) : Input → Option InspectorPanel
  | .cursorUp => some { p with model := p.model.selectPrevious }
  | .cursorDown => some { p with model := p.model.selectNext }
  | .home => some (p.select 0)
  | .end => some (p.select p.model.rows.length)
  | .enter => some (p.activate store)
  | .escape => some (p.setFocus false)
  | _ => none

/-- Handles an event. Of the mouse it wants clicks into the panel only, and keys only while it has
    the keyboard. -/
def handle (p : InspectorPanel) (engine : σ) (input : Input) (bounds : CellRect) :
    EventResult × InspectorPanel × σ :=
  match input.position? with
  | some _ =>
      match input with
      | .click row col =>
          if bounds.contains row col then
            (.consumed, p.click row col bounds (Engine.store engine), engine)
          else (.ignored, p, engine)
      | _ => (.ignored, p, engine)
  | none =>
      if !p.focused then (.ignored, p, engine)
      else
        match p.editor with
        | some field => (.consumed, p.typeInto engine field input bounds)
        | none =>
            match p.navigate? (Engine.store engine) input with
            | some p => (.consumed, p, engine)
            | none => (.ignored, p, engine)

/-- Draws one row of the list. -/
def drawRow (p : InspectorPanel) (s : Screen) (list : CellRect) (index : Nat) (row : InspectorRow) :
    Screen :=
  let value := p.valueRect list index
  let selected := decide (index = p.model.selected)
  let (fg, bg) : Color × Color :=
    if p.focused && selected then (.black, .cyan) else (.lightGray, .black)
  let s := s.fill value.y list.x list.width 1 ' ' fg bg
  let s := s.writeChars value.y list.x fg bg (row.label.toList.take labelWidth)
  match p.editor, selected with
  | some field, true => field.draw s value
  | _, _ => s.writeChars value.y value.x fg bg (row.value.toList.take value.width)

/-- Draws the list, the message of an error and the editor's cursor. -/
def drawList (p : InspectorPanel) (s : Screen) (list : CellRect) : Screen :=
  let s :=
    if p.model.rows.isEmpty then s.write list.y (list.x + 1) "No variables" .darkGray .black else s
  let first := p.firstVisible list
  let s := (((p.model.rows.drop first).take list.height).zipIdx first).foldl
    (fun s (row, index) => p.drawRow s list index row) s
  let s := match p.error with
    | some e => s.writeChars (list.y + list.height) list.x .red .black (e.toList.take list.width)
    | none => s
  match p.editor with
  | some field =>
      let value := p.valueRect list p.model.selected
      s.setCursor value.y (value.x + min field.cursor (value.width - 1))
  | none => s

/-- Draws the panel. -/
def draw (p : InspectorPanel) (s : Screen) (bounds : CellRect) : Screen :=
  let frame : Color := if p.focused then .white else .darkGray
  let s := s.box bounds.y bounds.x bounds.width bounds.height frame .black
  let s := s.write bounds.y (bounds.x + 2) " Variables (F6) " frame .black
  let list := listRect bounds
  if p.model.enabled then p.drawList s list
  else s.write list.y (list.x + 1) inspectorHint .darkGray .black

end InspectorPanel

end PocketBasic
