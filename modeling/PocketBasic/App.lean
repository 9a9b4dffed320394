import PocketBasic.Program.Computer
import PocketBasic.Simulator.Window
import PocketBasic.Terminal.Packets
import PocketBasic.View.AppLayout
import PocketBasic.View.Editor

/-! # Application

The program pane, the simulator window while it is open, and what the keys do. Commands work
everywhere; an open dialog takes everything else; otherwise events go to the inspector, the handset
or the program pane, whichever has the keyboard or lies under the mouse.

The program's file is read outside: whoever handles an event says what the file holds now.
-/

namespace PocketBasic

/-- The state of the application. -/
structure App where
  screen : Screen
  settings : SimulatorSettings
  lifecycle : Lifecycle
  editor : Editor
  window : Option (Window Computer)
  loop : EventLoop SimEvent
  quit : Bool

namespace App

/-- The application on a terminal of a given size, with a program in the pane. -/
def opened (size : Nat × Nat) (settings : SimulatorSettings) (editor : Editor) : App :=
  { screen := .blank size.1 size.2, settings, lifecycle := .stopped, editor, window := none,
    loop := .empty, quit := false }

/-- Where the parts stand. -/
def layout (a : App) : AppLayout :=
  .ofSize a.screen.width a.screen.height (a.window.map (·.size.1))

/-- Lines of the program in view. -/
def editorRows (a : App) : Nat := EditorView.rows a.layout.editor

/-- Takes over a window and the loop it was given. -/
def settle (a : App) (state : Window Computer × EventLoop SimEvent) : App :=
  { a with window := some state.1, loop := state.2 }

/-- Raises a lifecycle event. The window acts only on transitions that happen. -/
def raise (a : App) (event : Lifecycle.Event) : App :=
  match a.lifecycle.dispatch event with
  | (none, _) => a
  | (some t, lifecycle) =>
      let editor := if t.clearsMark then a.editor.clearMark else a.editor
      let a := { a with lifecycle, editor }
      match a.window with
      | some w => a.settle (w.transition t a.loop)
      | none => a

/-- Reads the program and opens the simulator on it without starting it, or shows why it cannot be
    read. -/
def openSimulator (a : App) : App :=
  match Computer.load a.editor.source with
  | .ok computer =>
      { a with
        editor := a.editor.clearScriptError
        window := some (.opened a.editor.name computer a.settings) }
  | .error e =>
      let a := { a with editor := a.editor.showScriptError e.line e.message }
      { a with editor := a.editor.showCursor a.editorRows }

/-- Stops the program and closes the simulator. -/
def closeSimulator (a : App) : App :=
  let a := a.raise .stop
  match a.window with
  | some w => { a with window := none, loop := (w.close a.loop).2 }
  | none => a

/-- Opens the simulator at first, then starts, pauses or continues the program. -/
def startPause (a : App) : App :=
  match a.lifecycle, a.window with
  | .stopped, none => a.openSimulator
  | .stopped, some _ => a.raise .start
  | .started, _ => a.raise .pause
  | .paused, _ => a.raise .cont

/-- Runs a command. `file` is what the program's file holds now, if it can be read. -/
def run (a : App) (file : Option String) : Command → App
  | .startPause => a.startPause
  | .focusInspector => { a with window := a.window.map (·.toggleInspector) }
  | .stop => a.raise .stop
  | .closeSimulator => a.closeSimulator
  | .reload =>
      let a := a.closeSimulator
      match file with
      | some source => { a with editor := a.editor.reload source }
      | none => a
  | .quit => { a.closeSimulator with quit := true }

/-- Acts on a notice of the window: the program is stopped, and its fault is shown in the pane. -/
def notice (a : App) : Notice → App
  | .stop => a.raise .stop
  | .failed fault =>
      let a := { a with editor := a.editor.showFault fault }
      { a with editor := a.editor.showCursor a.editorRows }.raise .stop

/-- Navigates in the program pane. -/
def editorEvent (a : App) (input : Input) : App :=
  match a.editor.navigate? a.editorRows input with
  | some editor => { a with editor }
  | none => a

/-- An event while the dialog is open. The dialog is modal; there is nothing to paste. -/
def dialogEvent (a : App) (w : Window Computer) (input : Input) (bounds : CellRect) : App :=
  if input = .ctrlV then a
  else
    let (result, state) := w.dialogEvent input bounds a.loop
    let a := a.settle state
    match result with
    | some n => a.notice n
    | none => a

/-- A mouse event. Releases reach the window wherever the mouse is; a click beside the window takes
    the keyboard from the inspector. -/
def mouseEvent (a : App) (w : Window Computer) (input : Input) (row col : Nat) (bounds : CellRect) :
    App :=
  let inside := bounds.contains row col
  let isRelease := match input with
    | .release _ _ => true
    | _ => false
  let isClick := match input with
    | .click _ _ => true
    | _ => false
  let (used, w, loop) :=
    if isRelease || inside then w.mouseEvent input bounds a.loop else (false, w, a.loop)
  let a := a.settle (w, loop)
  if used then a
  else if !inside && isClick then (a.settle (w.blurInspector, loop)).editorEvent input
  else a.editorEvent input

/-- A key while no dialog is open. -/
def keyEvent (a : App) (w : Window Computer) (input : Input) (bounds : CellRect) : App :=
  if w.inspectorFocused then
    let (used, w) := w.inspectorEvent input bounds
    let a := { a with window := some w }
    if used then a else a.editorEvent input
  else
    match a.lifecycle, Keypad.key? input with
    | .started, some code => a.settle (w.pressKey code a.loop)
    | _, _ => a.editorEvent input

/-- Handles an event of the keyboard or the mouse. -/
def handle (a : App) (file : Option String) (input : Input) : App :=
  match input.command? with
  | some command => a.run file command
  | none =>
      match a.window, a.layout.simulator with
      | some w, some bounds =>
          if w.dialog.isSome then a.dialogEvent w input bounds
          else
            match input.position? with
            | some (row, col) => a.mouseEvent w input row col bounds
            | none => a.keyEvent w input bounds
      | _, _ => a.editorEvent input

/-- Handles an event of the simulator. One that comes after its window has closed is dropped. -/
def handleSim (a : App) (event : SimEvent) : App :=
  match a.window with
  | none => a
  | some w =>
      let (result, state) := w.handle event a.loop
      let a := a.settle state
      match result with
      | some n => a.notice n
      | none => a

/-- Handles everything that is ready on the event loop. -/
def pump (a : App) : List SimEvent × App :=
  let (events, loop) := a.loop.drain
  (events, events.foldl handleSim { a with loop })

/-- Handles an event of the simulator, unless the program breaks off and takes the application with it. -/
def handleSim? (a : App) (event : SimEvent) : Option App :=
  let later := a.handleSim event
  let oversleeps := a.window.any (·.oversleeps event a.loop)
  if oversleeps || later.window.any (Engine.brokenOff ·.rig) then none else some later

/-- Handles everything that is ready, unless something in it breaks the application off. -/
def pump? (a : App) : Option (List SimEvent × App) :=
  let (events, loop) := a.loop.drain
  (events.foldlM handleSim? { a with loop }).map (events, ·)

/-- Draws everything. The terminal's cursor is seen while something is typed. -/
def draw (a : App) : App :=
  let l := a.layout
  let toolbar := Toolbar.ofState a.lifecycle a.window.isSome
  let typing := match a.window with
    | some w => w.dialog.isSome || w.inspectorEditing
    | none => false
  let s := (a.screen.clear .yellow .blue).setCursorVisible typing
  let s := toolbar.draw s a.editor.tooltip? l.toolbar
  let s := EditorView.draw a.editor s l.editor
  let s := match a.window, l.simulator with
    | some w, some bounds => w.draw s bounds
    | _, _ => s
  { a with screen := StatusLine.draw s a.lifecycle toolbar.hint? a.editor.cursor l.status }

/-- Follows the terminal to another size. Of a terminal that was resized nothing is known. -/
def fit (a : App) (size : Nat × Nat) : App :=
  if size = (a.screen.width, a.screen.height) then a
  else { a with screen := .blank size.1 size.2 }

/-- Handles keys in turn; those after a quit are not looked at. -/
def handleKeys (a : App) (file : Option String) (keys : List Key) : App :=
  keys.foldl (fun a key => if a.quit then a else a.handle file (.ofKey key)) a

/-- Writes what has changed on the screen. -/
def flush (a : App) : List TerminalOp × App :=
  let (ops, screen) := a.screen.flush
  (ops, { a with screen })

/-- One round: the keys that were typed, then what is ready on the loop, then the picture; unless something in it
    breaks the application off. -/
def frame? (a : App) (size : Nat × Nat) (file : Option String) (packets : List (List UInt8)) :
    Option (List TerminalOp × App) :=
  let a := (a.fit size).handleKeys file (Terminal.keys packets)
  a.pump?.map fun (_, a) => a.draw.flush

/-- Longest time to wait for the next round. -/
def frameTime : Nat := 10

/-- Time to wait for the next round. -/
def waitTime (a : App) : Nat :=
  match a.loop.untilNext with
  | some ms => min ms frameTime
  | none => frameTime

/-- Opens the simulator and starts the program, if it can be read. -/
def autostart (a : App) : App :=
  let a := a.startPause
  if a.window.isSome then a.startPause else a

end App

end PocketBasic
