import PocketBasic.Dialog.Session
import PocketBasic.View.TextField

/-! # Input dialog

One text field per value that a program asks for, over the session that converts them. Enter on a
field finishes it and goes to the next; Enter on the last field, Ctrl+Enter and OK submit
everything.
-/

namespace PocketBasic

/-- The session, its text fields and the field that has the keyboard. -/
structure InputDialog where
  session : Session
  fields : List TextField
  focus : Nat
  deriving Repr, DecidableEq

/-- What the owner of a dialog has to do. -/
inductive DialogOutcome where
  | pending
  | accepted (values : List Answer)
  | cancelled
  deriving Repr, DecidableEq

namespace InputDialog

/-- A dialog for a request, with the keyboard in the first field. -/
def ofRequest (r : Request) : InputDialog :=
  { session := .ofRequest r
    fields := (List.range r.fields.length).map fun i => { TextField.empty with focused := i = 0 }
    focus := 0 }

/-- Columns of a dialog. -/
def width : Nat := 52

/-- Rows of one field: label, text and error. -/
def fieldRows : Nat := 3

/-- One row if there is a prompt. -/
def promptRows (d : InputDialog) : Nat := if d.session.prompt.isSome then 1 else 0

/-- Columns and rows of the dialog. -/
def size (d : InputDialog) : Nat × Nat :=
  (width, 2 + d.promptRows + fieldRows * d.fields.length + 2)

/-- Where the text of a field stands. -/
def fieldRect (d : InputDialog) (bounds : CellRect) (index : Nat) : CellRect :=
  { x := bounds.x + 2, y := bounds.y + 1 + d.promptRows + index * fieldRows + 1,
    width := bounds.width - 4, height := 1 }

def okLabel : String := "< OK >"

def cancelLabel : String := "< Cancel >"

/-- Where the button that submits stands. -/
def okRect (bounds : CellRect) : CellRect :=
  ⟨bounds.x + 2, bounds.y + (bounds.height - 2), okLabel.length, 1⟩

/-- Where the button that cancels stands. -/
def cancelRect (bounds : CellRect) : CellRect :=
  ⟨bounds.x + 2 + okLabel.length + 2, bounds.y + (bounds.height - 2), cancelLabel.length, 1⟩

/-- Changes one field. -/
def updateField (d : InputDialog) (index : Nat) (f : TextField → TextField) : InputDialog :=
  { d with fields := d.fields.modify index f }

/-- Gives the keyboard to a field. -/
def setFocus (d : InputDialog) (index : Nat) : InputDialog :=
  { (d.updateField d.focus fun f => { f with focused := false }).updateField index
      (fun f => { f with focused := true }) with focus := index }

/-- Inserts pasted text into the field with the keyboard. -/
def paste (d : InputDialog) (text : List Char) : InputDialog :=
  d.updateField d.focus (·.insertText text)

/-- What the session asks of the owner now. The values of an accepted session are handed over
    once. -/
def outcome (d : InputDialog) : DialogOutcome × InputDialog :=
  match d.session.state with
  | .accepted =>
      let (values, session) := d.session.take
      (match values with
        | some values => .accepted values
        | none => .pending, { d with session })
  | .rejected => (.cancelled, d)
  | .editing => (.pending, d)

variable {σ : Type} [Engine σ]

/-- Closes the dialog without an answer. -/
def cancel (d : InputDialog) (engine : σ) : DialogOutcome × InputDialog × σ :=
  let (session, engine) := d.session.cancel engine
  let (outcome, d) := { d with session }.outcome
  (outcome, d, engine)

/-- Finishes the field with the keyboard and gives the keyboard to another one, unless that ended
    the session. -/
def moveFocus (d : InputDialog) (engine : σ) (index : Nat) : InputDialog × σ :=
  let text := match d.fields[d.focus]? with
    | some f => f.text
    | none => []
  let (_, session, engine) := d.session.finish engine d.focus text
  let d := { d with session }
  (if session.state = .editing then d.setFocus (index % d.fields.length) else d, engine)

/-- Submits every field. If that fails the keyboard goes to the first field at fault. -/
def submit (d : InputDialog) (engine : σ) : InputDialog × σ :=
  let (session, engine) := d.session.submit engine (d.fields.map (·.text))
  let d := { d with session }
  let d :=
    if session.state = .editing then
      match session.slots.findIdx? fun slot => !slot.isValid with
      | some index => d.setFocus index
      | none => d
    else d
  (d, engine)

/-- Handles a click into the first field that takes it. -/
def clickField (d : InputDialog) (engine : σ) (input : Input) (bounds : CellRect) :
    InputDialog × σ :=
  let takes := fun (f, index) => (TextField.handle f input (d.fieldRect bounds index)).1 = .focus
  match d.fields.zipIdx.find? takes with
  | some (f, index) =>
      let d := d.updateField index fun _ => (f.handle input (d.fieldRect bounds index)).2
      if index = d.focus then (d, engine) else d.moveFocus engine index
  | none => (d, engine)

/-- Handles a key in the field that has the keyboard. -/
def typeInto (d : InputDialog) (engine : σ) (input : Input) (bounds : CellRect) : InputDialog × σ :=
  match d.fields[d.focus]? with
  | none => (d, engine)
  | some f =>
      let (result, f) := f.handle input (d.fieldRect bounds d.focus)
      let d := d.updateField d.focus fun _ => f
      if result = .submit then
        if d.focus + 1 = d.fields.length then d.submit engine else d.moveFocus engine (d.focus + 1)
      else (d, engine)

/-- Handles an event that does not cancel the dialog. -/
def edit (d : InputDialog) (engine : σ) (input : Input) (bounds : CellRect) : InputDialog × σ :=
  match input with
  | .ctrlEnter => d.submit engine
  | .tab => d.moveFocus engine (d.focus + 1)
  | .cursorDown => d.moveFocus engine (d.focus + 1)
  | .shiftTab => d.moveFocus engine (d.focus + d.fields.length - 1)
  | .cursorUp => d.moveFocus engine (d.focus + d.fields.length - 1)
  | .click row col =>
      if (okRect bounds).contains row col then d.submit engine
      else d.clickField engine input bounds
  | _ => d.typeInto engine input bounds

/-- The event cancels the dialog: Escape, or a click on its button. -/
def isCancel (input : Input) (bounds : CellRect) : Bool :=
  match input with
  | .escape => true
  | .click row col => !(okRect bounds).contains row col && (cancelRect bounds).contains row col
  | _ => false

/-- Handles an event. A dialog without fields handles none. -/
def handle (d : InputDialog) (engine : σ) (input : Input) (bounds : CellRect) :
    DialogOutcome × InputDialog × σ :=
  if d.fields.isEmpty then (.pending, d, engine)
  else if isCancel input bounds then d.cancel engine
  else
    let (d, engine) := d.edit engine input bounds
    let (outcome, d) := d.outcome
    (outcome, d, engine)

/-- Draws a field: its label above it and its error below it. -/
def drawField (s : Screen) (rect : CellRect) (slot : Slot) (field : TextField) : Screen :=
  let s := s.write (rect.y - 1) rect.x slot.label .black .lightGray
  let s := field.draw s rect
  match slot.error with
  | some e => s.writeChars (rect.y + 1) rect.x .red .lightGray (e.message.toList.take rect.width)
  | none => s

/-- Draws the dialog and puts the terminal's cursor into the field with the keyboard. -/
def draw (d : InputDialog) (s : Screen) (bounds : CellRect) : Screen :=
  let s := s.box bounds.y bounds.x bounds.width bounds.height .black .lightGray
  let title := " Input "
  let s := s.write bounds.y (bounds.x + (bounds.width - title.length) / 2) title .black .lightGray
  let s := match d.session.prompt with
    | some prompt => s.write (bounds.y + 1) (bounds.x + 2) prompt .black .lightGray
    | none => s
  let s := ((d.session.slots.zip d.fields).zipIdx 0).foldl
    (fun s ((slot, field), index) => drawField s (d.fieldRect bounds index) slot field) s
  let ok := okRect bounds
  let cancel := cancelRect bounds
  let s := s.write ok.y ok.x okLabel .black .lightGray
  let s := s.write cancel.y cancel.x cancelLabel .black .lightGray
  let s := s.write cancel.y (cancel.x + cancel.width + 2) "Ctrl+Enter submits" .darkGray .lightGray
  let rect := d.fieldRect bounds d.focus
  match d.fields[d.focus]? with
  | some f => s.setCursor rect.y (rect.x + min f.cursor (rect.width - 1))
  | none => s

end InputDialog

end PocketBasic
