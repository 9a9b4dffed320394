import PocketBasic.Lifecycle
import PocketBasic.Simulator.Scheduler
import PocketBasic.View.Display
import PocketBasic.View.InputDialog
import PocketBasic.View.Inspector
import PocketBasic.View.Keypad

/-! # Simulator window

Runs one loaded program on its device and shows both: the display, the keypad, the inspector and,
while the program asks for values, the input dialog. The window follows the lifecycle and
handles the events it has scheduled; when the program has to be stopped it says so with a notice.
-/

namespace PocketBasic

/-- How the last run went, for the title. -/
inductive RunStatus where
  | ready
  | running
  | paused
  | finished
  deriving Repr, DecidableEq

namespace RunStatus

def label : RunStatus → String
  | .ready => "Ready"
  | .running => "Running"
  | .paused => "Paused"
  | .finished => "Finished"

end RunStatus

/-- Something the application has to act on. -/
inductive Notice where
  /-- The program has ended, or its dialog was cancelled. -/
  | stop
  /-- The program has failed. -/
  | failed (fault : RunFault)
  deriving Repr, DecidableEq

/-- A window on an engine with its device. -/
structure Window (σ : Type) where
  name : String
  rig : σ
  scheduler : Scheduler
  display : Display
  keypad : KeypadView
  dialog : Option InputDialog
  panel : InspectorPanel
  status : RunStatus
  /-- Shown in place of the status. -/
  message : Option String
  /-- Time after which a key of the host is released. -/
  keyRelease : Nat

/-- The parts of a window. -/
structure WindowLayout where
  title : CellRect
  display : CellRect
  status : CellRect
  keypad : CellRect
  panel : CellRect
  deriving Repr, DecidableEq

namespace Window

/-- Shown after a run has failed. -/
def failureMessage : String := "Program error, see the editor for details"

variable {σ : Type}

/-- A window whose program has not run. -/
def opened (name : String) (rig : σ) (s : SimulatorSettings) : Window σ :=
  { name, rig, scheduler := .ofSettings s, display := .ofSettings s, keypad := .empty,
    dialog := none, panel := .empty, status := .ready, message := none, keyRelease := s.keyRelease }

def title (w : Window σ) : String :=
  "GVBASIC simulator - " ++ w.name ++ " [" ++ w.status.label ++ "]"

/-- Columns and rows of the window. -/
def size (w : Window σ) : Nat × Nat :=
  let (width, height) := w.display.size
  (max (width + 2) (KeypadView.size.1 + 2),
    1 + height + 2 + 1 + KeypadView.size.2 + InspectorPanel.height)

/-- Where the parts stand. -/
def layout (w : Window σ) (bounds : CellRect) : WindowLayout :=
  let (_, height) := w.display.size
  let (keypadWidth, keypadHeight) := KeypadView.size
  let rows := bounds.split .vertical
    [.fixed 1, .fixed (height + 2), .fixed 1, .fixed keypadHeight, .fixed InspectorPanel.height]
  { title := rows.getD 0 default, display := rows.getD 1 default, status := rows.getD 2 default,
    keypad := (rows.getD 3 default).centered keypadWidth keypadHeight, panel := rows.getD 4 default }

/-- Where the dialog stands. -/
def dialogRect (bounds : CellRect) (d : InputDialog) : CellRect :=
  bounds.centered d.size.1 d.size.2

/-- The inspector has the keyboard. -/
def inspectorFocused (w : Window σ) : Bool := w.panel.focused

/-- The inspector has an editor open. -/
def inspectorEditing (w : Window σ) : Bool := w.panel.editor.isSome

/-- Gives the keyboard to the inspector or takes it back. -/
def toggleInspector (w : Window σ) : Window σ :=
  { w with panel := w.panel.setFocus !w.panel.focused }

/-- Takes the keyboard from the inspector. -/
def blurInspector (w : Window σ) : Window σ :=
  { w with panel := w.panel.setFocus false }

/-- Pastes into the dialog, if it is open. -/
def paste (w : Window σ) (text : List Char) : Window σ :=
  { w with dialog := w.dialog.map (·.paste text) }

/-- The scheduler with what it acts on. -/
def bench (w : Window σ) (loop : EventLoop SimEvent) : Bench σ :=
  ⟨w.scheduler, w.rig, loop⟩

/-- Takes over what the scheduler has done. -/
def settle (w : Window σ) (b : Bench σ) : Window σ × EventLoop SimEvent :=
  ({ w with scheduler := b.scheduler, rig := b.rig }, b.loop)

section Engine

variable [Engine σ]

/-- Closes the dialog, if it is open, and gives its values back. -/
def closeDialog (w : Window σ) : Window σ :=
  match w.dialog with
  | some d =>
      let (_, _, rig) := d.cancel w.rig
      { w with dialog := none, rig }
  | none => w

/-- Tears the window down. What is left on the loop was scheduled by this window and must not reach
    the next one. -/
def close (w : Window σ) (loop : EventLoop SimEvent) : Window σ × EventLoop SimEvent :=
  (w.closeDialog, loop.clear)

/-- A key for the inspector, and whether it was of use. -/
def inspectorEvent (w : Window σ) (input : Input) (bounds : CellRect) : Bool × Window σ :=
  let (result, panel, rig) := w.panel.handle w.rig input (w.layout bounds).panel
  (result.isConsumed, { w with panel, rig })

/-- An event while the dialog is open. -/
def dialogEvent (w : Window σ) (input : Input) (bounds : CellRect) (loop : EventLoop SimEvent) :
    Option Notice × Window σ × EventLoop SimEvent :=
  match w.dialog with
  | none => (none, w, loop)
  | some d =>
      match d.handle w.rig input (dialogRect bounds d) with
      | (.pending, d, rig) => (none, { w with dialog := some d, rig }, loop)
      | (.accepted values, _, rig) =>
          let w := { w with dialog := none, rig }
          (none, w.settle ((w.bench loop).provide values))
      | (.cancelled, _, rig) => (some .stop, { w with dialog := none, rig }, loop)

end Engine

section Device

variable [Device σ]

/-- Copies an area of the device to the display, if there is one. -/
def copy (w : Window σ) (area : Option PixelRect) : Window σ :=
  match area with
  | some area => { w with display := w.display.copy w.rig area }
  | none => w

/-- Copies what the device has written since the last time. -/
def copyDirty (w : Window σ) : Window σ :=
  let (area, rig) := Device.takeDirty w.rig
  { w with rig }.copy area

/-- Presses a key of the handset for the host's keyboard, and schedules its release. Nothing is
    pressed while no program runs. -/
def pressKey (w : Window σ) (code : UInt8) (loop : EventLoop SimEvent) :
    Window σ × EventLoop SimEvent :=
  if w.scheduler.running then
    let (w, loop) := w.settle ((w.bench loop).keyDown code)
    (w, (loop.singleShot w.keyRelease (.keyRelease code)).2)
  else (w, loop)

variable [Engine σ]

/-- Starts, continues or pauses the run, or ends it and shows its last picture. -/
def follow (w : Window σ) (t : Lifecycle.Transition) (loop : EventLoop SimEvent) :
    Window σ × EventLoop SimEvent :=
  match t.source, t.target with
  | .stopped, .started =>
      let w := { w.closeDialog with message := none, status := .running }
      w.settle (w.bench loop).start
  | _, .started => { w with status := .running }.settle (w.bench loop).cont
  | _, .paused => { w with status := .paused }.settle (w.bench loop).pause
  | _, .stopped =>
      let w := w.closeDialog
      let (complaint, b) := (w.bench loop).stop
      let (w, loop) := w.settle b
      let message := match complaint with
        | some text => some ("Runtime error: " ++ text)
        | none => w.message
      ({ w.copyDirty with message, status := .finished }, loop)

/-- Acts on a change of the lifecycle. The inspector follows it. -/
def transition (w : Window σ) (t : Lifecycle.Transition) (loop : EventLoop SimEvent) :
    Window σ × EventLoop SimEvent :=
  let (w, loop) := w.follow t loop
  let editable := (Toolbar.ofState t.target true).inspectorEditable
  ({ w with panel := w.panel.setEnabled editable (Engine.store w.rig) }, loop)

/-- What a step means to the window. -/
def afterStep (w : Window σ) : StepResult → Option Notice × Window σ
  | .awaitingInput request => (none, { w with dialog := some (.ofRequest request) })
  | .finished => (some .stop, w)
  | .failed fault => (some (.failed fault), { w with message := some failureMessage })
  | _ => (none, w)

/-- Handles an event the window has scheduled. -/
def handle (w : Window σ) (event : SimEvent) (loop : EventLoop SimEvent) :
    Option Notice × Window σ × EventLoop SimEvent :=
  match event with
  | .runStep =>
      let (result, b) := (w.bench loop).step
      let (w, loop) := w.settle b
      let (notice, w) := w.afterStep result
      (notice, w, loop)
  | .sleepElapsed generation => (none, w.settle ((w.bench loop).wake generation))
  | .repaintTick =>
      let (area, b) := (w.bench loop).repaintTick
      let (w, loop) := w.settle b
      (none, w.copy area, loop)
  | .cursorTick => (none, w.settle (w.bench loop).blinkTick)
  | .keyRelease code => (none, w.settle ((w.bench loop).keyUp code))

/-- The event is a step that is to sleep for too long. -/
def oversleeps (w : Window σ) (event : SimEvent) (loop : EventLoop SimEvent) : Bool :=
  match event with
  | .runStep => (w.bench loop).oversleeps
  | _ => false

/-- Handles an event the window has scheduled, unless the program breaks off. -/
def handle? (w : Window σ) (event : SimEvent) (loop : EventLoop SimEvent) :
    Option (Option Notice × Window σ × EventLoop SimEvent) :=
  let (notice, later, after) := w.handle event loop
  if w.oversleeps event loop || Engine.brokenOff later.rig then none else some (notice, later, after)

/-- A mouse event on the keypad, and whether it was of use. Keys go down only while a program
    runs, and up always. -/
def keypadEvent (w : Window σ) (input : Input) (bounds : CellRect) (loop : EventLoop SimEvent) :
    Bool × Window σ × EventLoop SimEvent :=
  let (result, keypad) := w.keypad.handle input (w.layout bounds).keypad
  let w := { w with keypad }
  match result with
  | .keyDown code =>
      if w.scheduler.running then (true, w.settle ((w.bench loop).keyDown code)) else (true, w, loop)
  | .keyUp code => (true, w.settle ((w.bench loop).keyUp code))
  | other => (other.isConsumed, w, loop)

/-- A mouse event, and whether it was of use. A click outside the inspector takes the keyboard from
    it. -/
def mouseEvent (w : Window σ) (input : Input) (bounds : CellRect) (loop : EventLoop SimEvent) :
    Bool × Window σ × EventLoop SimEvent :=
  match input with
  | .click row col =>
      if (w.layout bounds).panel.contains row col then
        let (used, w) := w.inspectorEvent input bounds
        (used, w, loop)
      else w.blurInspector.keypadEvent input bounds loop
  | _ => w.keypadEvent input bounds loop

/-- Draws the line that shows the message, or the status. -/
def drawStatus (w : Window σ) (s : Screen) (rect : CellRect) : Screen :=
  let s := s.fill rect.y rect.x rect.width 1 ' ' .black .lightGray
  match w.message with
  | some text => s.write rect.y (rect.x + 1) text .red .lightGray
  | none => s.write rect.y (rect.x + 1) w.status.label .black .lightGray

/-- Draws the window, with the dialog over it. -/
def draw (w : Window σ) (s : Screen) (bounds : CellRect) : Screen :=
  let l := w.layout bounds
  let s := s.fill l.title.y l.title.x l.title.width 1 ' ' .white .blue
  let x := l.title.x + (l.title.width - Screen.columnsOf w.title) / 2
  let s := s.write l.title.y x w.title .white .blue
  let (width, height) := w.display.size
  let frame := l.display.centered (width + 2) (height + 2)
  let s := s.box frame.y frame.x frame.width frame.height .darkGray .black
  let s := w.display.draw s (frame.inset 1)
  let s := w.drawStatus s l.status
  let s := w.keypad.draw s l.keypad (Device.isPressed w.rig)
  let s := w.panel.draw s l.panel
  match w.dialog with
  | some d => d.draw s (dialogRect bounds d)
  | none => s

end Device

end Window

end PocketBasic
