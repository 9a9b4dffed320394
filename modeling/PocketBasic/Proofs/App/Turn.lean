import PocketBasic.App
import PocketBasic.Proofs.Simulator.Host

/-! # What one event makes of the application

An event of the user or of the loop comes to one thing at most: it opens the simulator, it closes it, or it
is one act of the host of the window. Besides that the pane may move its cursor or its mark, but the text of
a program with a window stays what the window was opened on.
-/

namespace PocketBasic

namespace Editor

variable (e : Editor)

theorem exists_showCursor (rows : Nat) : ∃ scroll, e.showCursor rows = { e with scroll } := by
  unfold showCursor
  split
  · exact ⟨_, rfl⟩
  · split
    · exact ⟨_, rfl⟩
    · split <;> exact ⟨_, rfl⟩

/-- Navigation is about the cursor and the view. -/
theorem exists_navigate {e moved : Editor} {rows : Nat} {input : Input}
    (navigated : e.navigate? rows input = some moved) : ∃ cursor scroll, moved = { e with cursor, scroll } := by
  have moves (line : Nat) : ∃ cursor scroll, e.moveTo line rows = { e with cursor, scroll } :=
    ⟨line, exists_showCursor { e with cursor := line } rows⟩
  unfold navigate? at navigated
  split at navigated
  all_goals cases navigated
  all_goals first
    | exact moves _
    | exact ⟨_, _, rfl⟩

theorem lines_showCursor (rows : Nat) : (e.showCursor rows).lines = e.lines := by
  obtain ⟨scroll, shown⟩ := e.exists_showCursor rows
  rw [shown]

theorem lines_clearScriptError : e.clearScriptError.lines = e.lines := by
  unfold clearScriptError
  split <;> rfl

theorem lines_navigate {e moved : Editor} {rows : Nat} {input : Input}
    (navigated : e.navigate? rows input = some moved) : moved.lines = e.lines := by
  obtain ⟨cursor, scroll, rfl⟩ := exists_navigate navigated
  rfl

end Editor

namespace App

variable {a b : App} {w : Window Computer}

/-- The host that the application is to its window. -/
def hosting (a : App) (w : Window Computer) : Host Computer := ⟨a.lifecycle, w, a.loop⟩

/-- The application is where a host is, with the text of `a` in its pane. -/
structure Took (a : App) (h : Host Computer) (b : App) : Prop where
  lifecycle : b.lifecycle = h.lifecycle
  window : b.window = some h.window
  loop : b.loop = h.loop
  lines : b.editor.lines = a.editor.lines

/-- What an event comes to. -/
inductive Deed where
  /-- It was for the pane, or for nobody. -/
  | nothing
  | act (act : Host.Act)
  /-- A window is opened on the program. -/
  | launch (computer : Computer)
  | close

/-- What the application makes of an event that comes to a deed. -/
inductive Turn (a : App) : Deed → App → Prop where
  /-- Only a text without a window is replaced. -/
  | kept {b : App} (lifecycle : b.lifecycle = a.lifecycle) (window : b.window = a.window)
      (loop : b.loop = a.loop) (lines : a.window.isSome = true → b.editor.lines = a.editor.lines) :
      Turn a .nothing b
  | hosted {b : App} {w : Window Computer} {act : Host.Act} (shown : a.window = some w)
      (took : a.Took ((a.hosting w).act act) b) : Turn a (.act act) b
  | opened {b : App} {computer : Computer} (closed : a.window = none)
      (loaded : Computer.load a.editor.source = .ok computer)
      (took : a.Took (a.hosting (.opened a.editor.name computer a.settings)) b) :
      Turn a (.launch computer) b
  | closed {b : App} {w : Window Computer} (shown : a.window = some w)
      (lifecycle : b.lifecycle = ((a.hosting w).raise .stop).lifecycle) (window : b.window = none)
      (loop : b.loop = ((a.hosting w).raise .stop).loop.clear) : Turn a .close b

theorem Turn.refl (a : App) : Turn a .nothing a := .kept rfl rfl rfl fun _ => rfl

theorem Turn.touched {act : Window.Act} (shown : a.window = some w)
    (took : a.Took ((a.hosting w).touch act) b) : Turn a (.act (.touch act)) b :=
  .hosted shown took

/-! ## What an event comes to -/

/-- Opens a window, if the program can be read. -/
def launching (a : App) : Deed :=
  match Computer.load a.editor.source with
  | .ok computer => .launch computer
  | .error _ => .nothing

/-- What a command comes to while there is a window. -/
def commandDeed (a : App) : Command → Deed
  | .startPause =>
      match a.lifecycle with
      | .stopped => .act (.raise .start)
      | .started => .act (.raise .pause)
      | .paused => .act (.raise .cont)
  | .focusInspector => .act (.touch .toggleInspector)
  | .stop => .act (.raise .stop)
  | .closeSimulator | .reload | .quit => .close

/-- What does not reach the window is a click beside it, or for the pane. -/
def mouseDeed (input : Input) (row col : Nat) (bounds : CellRect) : Deed :=
  match input with
  | .release _ _ => .act (.touch (.mouse input bounds))
  | .click _ _ =>
      if bounds.contains row col then .act (.touch (.mouse input bounds))
      else .act (.touch .blurInspector)
  | _ => if bounds.contains row col then .act (.touch (.mouse input bounds)) else .nothing

def keyDeed (a : App) (w : Window Computer) (input : Input) (bounds : CellRect) : Deed :=
  if w.inspectorFocused then .act (.touch (.inspector input bounds))
  else
    match a.lifecycle, Keypad.key? input with
    | .started, some code => .act (.touch (.press code))
    | _, _ => .nothing

/-- What an event of the keyboard or the mouse comes to while there is a window. -/
def windowDeed (a : App) (w : Window Computer) (input : Input) : Deed :=
  match input.command? with
  | some command => a.commandDeed command
  | none =>
      match a.layout.simulator with
      | none => .nothing
      | some bounds =>
          if w.dialog.isSome then
            if input = .ctrlV then .nothing else .act (.touch (.dialog input bounds))
          else
            match input.position? with
            | some (row, col) => mouseDeed input row col bounds
            | none => a.keyDeed w input bounds

/-- What an event of the keyboard or the mouse comes to. -/
def inputDeed (a : App) (input : Input) : Deed :=
  match a.window with
  | some w => a.windowDeed w input
  | none => if input.command? = some .startPause then a.launching else .nothing

/-- Only the text of the pane counts. -/
theorem Took.withEditor {h : Host Computer} (took : a.Took h b) {editor : Editor}
    (lines : editor.lines = b.editor.lines) : a.Took h { b with editor } :=
  ⟨took.lifecycle, took.window, took.loop, lines.trans took.lines⟩

/-! ## The lifecycle -/

theorem took_raise (shown : a.window = some w) (event : Lifecycle.Event) :
    a.Took ((a.hosting w).raise event) (a.raise event) := by
  have lines (clears : Bool) :
      (if clears then a.editor.clearMark else a.editor).lines = a.editor.lines := by
    cases clears <;> rfl
  unfold raise Host.raise
  dsimp only [hosting]
  cases a.lifecycle.dispatch event with
  | mk happened lifecycle =>
      cases happened with
      | none => exact ⟨rfl, shown, rfl, rfl⟩
      | some t =>
          dsimp only
          rw [shown]
          exact ⟨rfl, rfl, rfl, lines t.clearsMark⟩

/-- A notice shows its fault in the pane, and is a stop otherwise. -/
theorem took_notice (shown : a.window = some w) (n : Notice) :
    a.Took ((a.hosting w).raise .stop) (a.notice n) := by
  cases n with
  | stop => exact took_raise shown .stop
  | failed fault =>
      let marked : App := { a with editor := a.editor.showFault fault }
      let scrolled : App := { marked with editor := marked.editor.showCursor marked.editorRows }
      have took : scrolled.Took ((a.hosting w).raise .stop) (scrolled.raise .stop) :=
        took_raise (a := scrolled) shown .stop
      exact ⟨took.lifecycle, took.window, took.loop, took.lines.trans (Editor.lines_showCursor _ _)⟩

/-- Whatever the window does, its notice is answered as a host answers it. -/
theorem took_touch (act : Window.Act) :
    a.Took ((a.hosting w).touch act)
      (match (w.perform a.loop act).1 with
        | some n => (a.settle (w.perform a.loop act).2).notice n
        | none => a.settle (w.perform a.loop act).2) := by
  unfold Host.touch
  dsimp only [hosting]
  cases w.perform a.loop act with
  | mk notice state =>
      cases notice with
      | none => exact ⟨rfl, rfl, rfl, rfl⟩
      | some n =>
          have took := took_notice (a := a.settle state) rfl n
          exact ⟨took.lifecycle, took.window, took.loop, took.lines⟩

/-! ## The pane -/

theorem Took.editorEvent {h : Host Computer} (took : a.Took h b) (input : Input) :
    a.Took h (b.editorEvent input) := by
  unfold App.editorEvent
  split
  · rename_i navigated
    exact took.withEditor (Editor.lines_navigate navigated)
  · exact took

theorem turn_editorEvent (a : App) (input : Input) : Turn a .nothing (a.editorEvent input) := by
  unfold App.editorEvent
  split
  · rename_i navigated
    exact .kept rfl rfl rfl fun _ => Editor.lines_navigate navigated
  · exact .refl a

/-! ## Commands -/

theorem turn_openSimulator (closed : a.window = none) : Turn a a.launching a.openSimulator := by
  unfold launching openSimulator
  cases loaded : Computer.load a.editor.source with
  | ok computer => exact .opened closed loaded ⟨rfl, rfl, rfl, Editor.lines_clearScriptError _⟩
  | error e =>
      exact .kept rfl rfl rfl
        fun _ => Editor.lines_showCursor (a.editor.showScriptError e.line e.message) _

theorem closeSimulator_of_shown (shown : a.window = some w) :
    a.closeSimulator =
      { a.raise .stop with window := none, loop := (a.raise .stop).loop.clear } := by
  rw [closeSimulator, (took_raise shown .stop).window]
  rfl

/-- Closing is closing, whatever becomes of the pane and of the rest. -/
theorem turn_closed (shown : a.window = some w) (lifecycle : b.lifecycle = a.closeSimulator.lifecycle)
    (window : b.window = a.closeSimulator.window) (loop : b.loop = a.closeSimulator.loop) :
    Turn a .close b := by
  have took := took_raise shown .stop
  rw [closeSimulator_of_shown shown] at lifecycle window loop
  refine .closed shown (lifecycle.trans took.lifecycle) window ?_
  rw [← took.loop]
  exact loop

theorem turn_command (shown : a.window = some w) (file : Option String) (command : Command) :
    Turn a (a.commandDeed command) (a.run file command) := by
  cases command with
  | startPause =>
      unfold commandDeed run startPause
      rw [shown]
      cases a.lifecycle with
      | stopped => exact .hosted shown (took_raise shown .start)
      | started => exact .hosted shown (took_raise shown .pause)
      | paused => exact .hosted shown (took_raise shown .cont)
  | focusInspector =>
      have took : a.Took ((a.hosting w).touch .toggleInspector) (a.run file .focusInspector) :=
        ⟨rfl, by rw [run, shown]; rfl, rfl, rfl⟩
      exact .touched shown took
  | stop => exact .hosted shown (took_raise shown .stop)
  | closeSimulator => exact turn_closed shown rfl rfl rfl
  | reload =>
      unfold run
      cases file with
      | none => exact turn_closed shown rfl rfl rfl
      | some source => exact turn_closed shown rfl rfl rfl
  | quit => exact turn_closed shown rfl rfl rfl

/-- Without a window there is nothing to stop. -/
theorem raise_of_closed (stopped : a.lifecycle = .stopped) : a.raise .stop = a := by
  unfold raise
  rw [stopped]
  rfl

theorem closeSimulator_of_closed (closed : a.window = none) (stopped : a.lifecycle = .stopped) :
    a.closeSimulator = a := by
  rw [closeSimulator, raise_of_closed stopped, closed]

/-- Without a window only the start button does more than read the file again. -/
theorem turn_command_of_closed (closed : a.window = none) (stopped : a.lifecycle = .stopped)
    (file : Option String) (command : Command) :
    Turn a (if command = .startPause then a.launching else .nothing) (a.run file command) := by
  have nothing {b : App} (lifecycle : b.lifecycle = a.lifecycle) (window : b.window = a.window)
      (loop : b.loop = a.loop) : Turn a .nothing b := by
    refine .kept lifecycle window loop fun still => ?_
    rw [closed] at still
    cases still
  cases command with
  | startPause =>
      unfold run startPause
      rw [stopped, closed]
      exact turn_openSimulator closed
  | focusInspector => exact nothing rfl (by rw [run, closed]; rfl) rfl
  | stop =>
      unfold run
      rw [raise_of_closed stopped]
      exact .refl a
  | closeSimulator | quit =>
      unfold run
      rw [closeSimulator_of_closed closed stopped]
      exact nothing rfl rfl rfl
  | reload =>
      unfold run
      rw [closeSimulator_of_closed closed stopped]
      cases file <;> exact nothing rfl rfl rfl

/-! ## Keys and the mouse -/

theorem turn_mouseEvent (shown : a.window = some w) (input : Input) (row col : Nat)
    (bounds : CellRect) :
    Turn a (mouseDeed input row col bounds) (a.mouseEvent w input row col bounds) := by
  have used : a.Took ((a.hosting w).touch (.mouse input bounds))
      (a.settle (w.mouseEvent input bounds a.loop).2) := took_touch (.mouse input bounds)
  have blurred : a.Took ((a.hosting w).touch .blurInspector) (a.settle (w.blurInspector, a.loop)) :=
    took_touch .blurInspector
  have same : a.settle (w, a.loop) = a := by
    rw [settle, ← shown]
  unfold App.mouseEvent
  dsimp only
  cases inside : bounds.contains row col with
  | true =>
      have deed : mouseDeed input row col bounds = .act (.touch (.mouse input bounds)) := by
        unfold mouseDeed
        rw [inside]
        cases input <;> rfl
      rw [deed]
      simp only [Bool.or_true, if_true, Bool.not_true, Bool.false_and, Bool.false_eq_true, if_false]
      split
      · exact .touched shown used
      · exact .touched shown (used.editorEvent input)
  | false =>
      unfold mouseDeed
      simp only [inside, Bool.or_false, Bool.not_false, Bool.true_and]
      cases input with
      | release row' col' =>
          simp only [if_true, Bool.false_eq_true, if_false]
          split
          · exact .touched shown used
          · exact .touched shown (used.editorEvent _)
      | click row' col' =>
          simp only [Bool.false_eq_true, if_false, if_true]
          exact .touched shown (blurred.editorEvent _)
      | _ =>
          simp only [Bool.false_eq_true, if_false, same]
          exact turn_editorEvent a _

theorem turn_keyEvent (shown : a.window = some w) (input : Input) (bounds : CellRect) :
    Turn a (a.keyDeed w input bounds) (a.keyEvent w input bounds) := by
  have edited : a.Took ((a.hosting w).touch (.inspector input bounds))
      (a.settle ((w.inspectorEvent input bounds).2, a.loop)) := took_touch (.inspector input bounds)
  unfold App.keyEvent keyDeed
  split
  · dsimp only
    split
    · exact .touched shown edited
    · exact .touched shown (edited.editorEvent input)
  · cases a.lifecycle with
    | started =>
        cases Keypad.key? input with
        | some code => exact .touched shown (took_touch (.press code))
        | none => exact turn_editorEvent a input
    | stopped | paused => exact turn_editorEvent a input

theorem turn_window (shown : a.window = some w) (file : Option String) (input : Input) :
    Turn a (a.windowDeed w input) (a.handle file input) := by
  unfold windowDeed App.handle
  cases input.command? with
  | some command => exact turn_command shown file command
  | none =>
      dsimp only
      rw [shown]
      cases a.layout.simulator with
      | none => exact turn_editorEvent a input
      | some bounds =>
          dsimp only
          split
          · unfold App.dialogEvent
            split
            · exact .refl a
            · exact .touched shown (took_touch (.dialog input bounds))
          · cases input.position? with
            | some place => exact turn_mouseEvent shown input place.1 place.2 bounds
            | none => exact turn_keyEvent shown input bounds

/-- An event of the user takes one turn. -/
theorem turn_handle (idle : a.window = none → a.lifecycle = .stopped) (file : Option String)
    (input : Input) : Turn a (a.inputDeed input) (a.handle file input) := by
  unfold inputDeed
  cases shown : a.window with
  | some w => exact turn_window shown file input
  | none =>
      unfold App.handle
      cases input.command? with
      | some command =>
          simp only [Option.some.injEq]
          exact turn_command_of_closed shown (idle shown) file command
      | none =>
          dsimp only
          rw [shown]
          exact turn_editorEvent a input

/-- So does an event of the loop. -/
theorem turn_handleSim (shown : a.window = some w) (event : SimEvent) :
    Turn a (.act (.touch (.event event))) (a.handleSim event) := by
  unfold App.handleSim
  rw [shown]
  exact .touched shown (took_touch (.event event))

end App

end PocketBasic
