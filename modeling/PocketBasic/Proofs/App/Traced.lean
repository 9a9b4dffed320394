import PocketBasic.Proofs.App.InView
import PocketBasic.Proofs.App.StuckKeys
import PocketBasic.Proofs.App.TracedPane
import PocketBasic.Proofs.Program.TracedRuns
import PocketBasic.Proofs.Simulator.Traced

/-! # Control characters on the application's screen

Nothing filters what the application shows: not the pane, not the views of the window, and not the screen. So a
control character that is in the lines of the program, in the name of its file or in a pasted text may get into
a cell, and a flush then prints it for the terminal to act on. But there is no other way to get one there: the
application writes none of its own, and neither do the run, the engine's complaints and the conversions.
-/

namespace PocketBasic

namespace App

/-- The characters that an occurrence brings in. The ends of lines are neither read nor pasted. -/
def Occurrence.given : Occurrence → List Char
  | .input (some source) .ctrlR => (Text.lines source.toList).flatten
  | .input _ event => event.typed
  | .paste text => text.filter fun c => c ≠ '\r' ∧ c ≠ '\n'
  | _ => []

/-- The texts of the program and of the window are traced. The cells are drawn anew from these. -/
structure Traced (given : List Char) (a : App) : Prop where
  editor : a.editor.Traced given
  window : ∀ w, a.window = some w → w.Traced given (Computer.Traced given)

variable {given : List Char} {a b : App}

namespace Traced

variable (traced : a.Traced given)

include traced

theorem of_same (editor : b.editor = a.editor) (window : b.window = a.window) : b.Traced given := by
  refine ⟨?_, fun w shown => ?_⟩
  · rw [editor]
    exact traced.editor
  · rw [window] at shown
    exact traced.window w shown

theorem withEditor {editor : Editor} (shown : editor.Traced given) : App.Traced given { a with editor } :=
  ⟨shown, traced.window⟩

theorem withWindow {w : Window Computer} (shown : w.Traced given (Computer.Traced given)) :
    App.Traced given { a with window := some w } := by
  refine ⟨traced.editor, ?_⟩
  rintro _ ⟨⟩
  exact shown

theorem settle {state : Window Computer × EventLoop SimEvent}
    (settled : state.1.Traced given (Computer.Traced given)) : (a.settle state).Traced given :=
  (traced.withWindow settled).of_same rfl rfl

theorem raise (event : Lifecycle.Event) : (a.raise event).Traced given := by
  unfold App.raise
  split
  · exact traced
  · rename_i t lifecycle _
    have editor : (if t.clearsMark then a.editor.clearMark else a.editor).Traced given := by
      split
      · exact traced.editor.clearMark
      · exact traced.editor
    have marked := traced.withEditor editor
    dsimp only
    split
    · rename_i w shown
      have followed : (w.transition t a.loop).1.Traced given (Computer.Traced given) :=
        (traced.window w shown).transition Computer.traces t
      exact ⟨editor, fun other same => by cases same; exact followed⟩
    · exact marked.of_same rfl rfl

/-! ## Commands -/

/-- The complaint about a program that cannot be read is about one of its lines. -/
theorem openSimulator : a.openSimulator.Traced given := by
  have loaded := Computer.meets_load traced.editor.source
  unfold App.openSimulator
  split
  · rename_i computer read
    have opened : Window.Traced given (Computer.Traced given) (.opened a.editor.name computer a.settings) :=
      Window.traced_opened traced.editor.name (loaded.ok read) a.settings
    exact (traced.withEditor traced.editor.clearScriptError).withWindow opened
  · rename_i e refused
    have complaint : Text.Traced given e.message.toList := loaded.error refused
    have marked := traced.editor.showScriptError complaint e.line
    exact ⟨marked.showCursor _, traced.window⟩

theorem closeSimulator : a.closeSimulator.Traced given := by
  have stopped := traced.raise .stop
  unfold App.closeSimulator
  dsimp only
  split
  · exact ⟨stopped.editor, fun w shown => by cases shown⟩
  · exact stopped

theorem startPause : a.startPause.Traced given := by
  unfold App.startPause
  split
  · exact traced.openSimulator
  all_goals exact traced.raise _

theorem run {file : Option String} {command : Command}
    (read : command = .reload → ∀ source, file = some source →
      ∀ line ∈ Text.lines source.toList, Text.Traced given line) :
    (a.run file command).Traced given := by
  have closed := traced.closeSimulator
  cases command with
  | startPause => exact traced.startPause
  | focusInspector =>
      refine ⟨traced.editor, fun w shown => ?_⟩
      obtain ⟨before, open', rfl⟩ := Option.map_eq_some_iff.mp shown
      exact (traced.window before open').toggleInspector
  | stop => exact traced.raise .stop
  | closeSimulator => exact closed
  | reload =>
      cases file with
      | none => exact closed
      | some source => exact closed.withEditor (closed.editor.reload (read rfl source rfl))
  | quit => exact closed.of_same rfl rfl

/-! ## Keys and the mouse -/

theorem notice {n : Notice} (told : n.Traced given) : (a.notice n).Traced given := by
  cases n with
  | stop => exact traced.raise .stop
  | failed fault => exact (traced.withEditor ((traced.editor.showFault told).showCursor _)).raise .stop

theorem editorEvent (input : Input) : (a.editorEvent input).Traced given := by
  unfold App.editorEvent
  split
  · rename_i navigated
    exact traced.withEditor (traced.editor.navigate navigated)
  · exact traced

theorem of_handled {result : Option Notice × Window Computer × EventLoop SimEvent}
    (handled : Window.Voiced given (Computer.Traced given) result) :
    App.Traced given (match result.1 with
      | some n => (a.settle result.2).notice n
      | none => a.settle result.2) := by
  obtain ⟨told, window⟩ := handled
  have settled := traced.settle window
  split
  · rename_i n noticed
    exact settled.notice (told n noticed)
  · exact settled

section Inputs

variable {w : Window Computer} (shown : a.window = some w) {input : Input} (typed : Text.Traced given input.typed)
  (bounds : CellRect)

include shown typed

theorem dialogEvent : (a.dialogEvent w input bounds).Traced given := by
  have handled : Window.Voiced given (Computer.Traced given) (w.dialogEvent input bounds a.loop) :=
    (traced.window w shown).dialogEvent Computer.traces typed bounds
  unfold App.dialogEvent
  split
  · exact traced
  · exact traced.of_handled handled

theorem mouseEvent (row col : Nat) : (a.mouseEvent w input row col bounds).Traced given := by
  have opened := traced.window w shown
  refine a.mouseEvent_cases w input row col bounds fun state touched => ?_
  have settled : state.1.Traced given (Computer.Traced given) := by
    rcases touched with rfl | rfl
    · exact opened.mouseEvent Computer.traces typed bounds
    · exact opened
  have kept := traced.settle settled
  exact ⟨kept, kept.editorEvent input, (kept.settle settled.blurInspector).editorEvent input⟩

theorem keyEvent : (a.keyEvent w input bounds).Traced given := by
  have opened := traced.window w shown
  unfold App.keyEvent
  split
  · have edited := traced.withWindow (opened.inspectorEvent Computer.traces typed bounds)
    dsimp only
    split
    · exact edited
    · exact edited.editorEvent input
  · split
    · exact traced.settle (opened.pressKey Computer.traces _)
    · exact traced.editorEvent input

omit shown in
theorem handle {file : Option String}
    (read : input.command? = some .reload → ∀ source, file = some source →
      ∀ line ∈ Text.lines source.toList, Text.Traced given line) :
    (a.handle file input).Traced given := by
  unfold App.handle
  split
  · rename_i command asked
    exact traced.run fun reloads => read (reloads ▸ asked)
  · split
    · rename_i w bounds shown _
      split
      · exact traced.dialogEvent shown typed bounds
      · split
        · exact traced.mouseEvent shown typed bounds _ _
        · exact traced.keyEvent shown typed bounds
    · exact traced.editorEvent input

end Inputs

/-! ## Everything that can happen -/

theorem handleSim (event : SimEvent) : (a.handleSim event).Traced given := by
  unfold App.handleSim
  split
  · exact traced
  · rename_i w shown
    exact traced.of_handled ((traced.window w shown).handle Computer.traces event)

theorem pump : a.pump.2.Traced given := by
  have all (events : List SimEvent) {a : App} (traced : a.Traced given) :
      (events.foldl App.handleSim a).Traced given := by
    induction events generalizing a with
    | nil => exact traced
    | cons event rest ih => exact ih (traced.handleSim event)
  exact all _ (traced.of_same rfl rfl)

theorem paste {text : List Char} (pasted : Text.Traced given (text.filter fun c => c ≠ '\r' ∧ c ≠ '\n')) :
    App.Traced given { a with window := a.window.map (·.paste text) } := by
  refine ⟨traced.editor, fun w shown => ?_⟩
  obtain ⟨before, open', rfl⟩ := Option.map_eq_some_iff.mp shown
  exact (traced.window before open').paste pasted

/-- A step shows what was shown and what it brings in. -/
theorem occur {o : Occurrence} (brought : Text.Traced given o.given) : (a.occur o).Traced given := by
  cases o with
  | input file input =>
      have typed : Text.Traced given input.typed := by
        cases input with
        | char c => simpa only [Occurrence.given] using brought
        | _ => exact Text.traced_nil
      refine traced.handle typed ?_
      rintro reloads source rfl line member
      unfold Input.command? at reloads
      split at reloads <;> cases reloads
      exact Text.Traced.of_subset brought fun c inside => List.mem_flatten_of_mem member inside
  | paste text => exact traced.paste brought
  | pump => exact traced.pump
  | fit size =>
      change (a.fit size).Traced given
      unfold App.fit
      split <;> exact traced.of_same rfl rfl
  | advance | draw | flush => exact traced.of_same rfl rfl

theorem occurAll {os : List Occurrence} (brought : ∀ o ∈ os, Text.Traced given o.given) :
    (a.occurAll os).Traced given := by
  induction os generalizing a with
  | nil => exact traced
  | cons o rest ih =>
      rw [List.forall_mem_cons] at brought
      exact ih (traced.occur brought.1) brought.2

theorem drawWindow {s : Screen} (drawn : s.Traced given) :
    Screen.Traced given (match a.window, a.layout.simulator with
      | some w, some bounds => w.draw s bounds
      | _, _ => s) := by
  split
  · rename_i w bounds shown _
    exact (traced.window w shown).draw drawn bounds
  · exact drawn

theorem draw : a.draw.screen.Traced given := by
  have tooltip : ∀ tip, a.editor.tooltip? = some tip → Text.Traced given tip.toList := by
    intro tip told
    unfold Editor.tooltip? at told
    split at told <;> cases told
    exact Text.traced_of_plain (by decide)
  have hint (t : Toolbar) : ∀ text, t.hint? = some text → Text.Traced given text.toList := by
    intro text told
    unfold Toolbar.hint? at told
    split at told <;> cases told
    exact Text.traced_of_plain (by decide)
  unfold App.draw
  dsimp only
  apply StatusLine.traced_draw _ _ (hint _)
  apply traced.drawWindow
  apply EditorView.traced_draw _ traced.editor
  apply Toolbar.traced_draw _ _ tooltip
  exact (Screen.Traced.clear a.screen).setCursorVisible _

end Traced

/-- Everything that a pane, and what is read, typed and pasted later, can bring to the screen. -/
def givenBy (e : Editor) (os : List Occurrence) : List Char :=
  e.name.toList ++ e.lines.flatten ++ os.flatMap Occurrence.given

theorem traced_occurAll (size : Nat × Nat) (settings : SimulatorSettings) {e : Editor} (unmarked : e.mark = none)
    (os : List Occurrence) : ((App.opened size settings e).occurAll os).Traced (givenBy e os) := by
  have given {text : List Char} (inside : text ⊆ givenBy e os) : Text.Traced (givenBy e os) text :=
    (Text.traced_self _).of_subset inside
  have named : e.name.toList ⊆ givenBy e os :=
    fun c inside => List.mem_append_left _ (List.mem_append_left _ inside)
  have held : ∀ line ∈ e.lines, line ⊆ givenBy e os := fun line member c inside =>
    List.mem_append_left _ (List.mem_append_right _ (List.mem_flatten_of_mem member inside))
  have brought : ∀ o ∈ os, o.given ⊆ givenBy e os := fun o member c inside =>
    List.mem_append_right _ (List.mem_flatMap_of_mem member inside)
  have pane : e.Traced (givenBy e os) := by
    refine ⟨given named, fun line member => given (held line member), fun mark shown => ?_⟩
    rw [unmarked] at shown
    cases shown
  have opened : (App.opened size settings e).Traced (givenBy e os) := ⟨pane, fun w shown => by cases shown⟩
  exact opened.occurAll fun o member => given (brought o member)

/-- A control character in a cell of the picture was in the name of the program's file or in one of the lines that
    were read, or it was typed or pasted, and besides the introducers of control sequences a flush writes no other.
    But what is in view of the program is drawn and printed, and control characters like any other. -/
theorem control_is_drawn_as_given (size : Nat × Nat) (settings : SimulatorSettings) (path source : String)
    (lineNumbers : Bool) (os : List Occurrence) {c : Char} (control : Key.isControl c = true) :
    let e := Editor.ofSource path source lineNumbers
    let b := (App.opened size settings e).occurAll os
    let a := b.draw
    (∀ i cell, a.screen.cell? i = some cell → cell.ch = c → c ∈ givenBy e os) ∧
      (∀ op ∈ a.flush.1, c ∈ op.text.toList →
        (op = .print c ∧ c ∈ givenBy e os) ∨
          ∃ parameters, op.text = TerminalOp.introducer ++ parameters ∧ c ∉ parameters.toList) ∧
      (b.window = none → b.InView c →
        ∃ i cell, a.screen.cell? i = some cell ∧ cell.ch = c ∧
          (b.screen.known? i = some cell ∨ .print c ∈ a.flush.1)) := by
  intro e b a
  have drawn : a.screen.Traced (givenBy e os) := (traced_occurAll size settings (e := e) rfl os).draw
  have given : ∀ i cell, a.screen.cell? i = some cell → cell.ch = c → c ∈ givenBy e os := by
    rintro i cell entry rfl
    exact drawn i cell entry cell.ch List.mem_cons_self control
  refine ⟨given, fun op written inside => ?_, fun closed viewed => ?_⟩
  · rcases op.print_or_sequence with ⟨printed, rfl⟩ | ⟨parameters, sequence, plain⟩
    · obtain rfl : c = printed := by simpa [TerminalOp.text] using inside
      obtain ⟨i, cell, entry, same⟩ := Screen.exists_of_mem_flush written
      exact .inl ⟨rfl, given i cell entry same⟩
    · exact .inr ⟨parameters, sequence, fun member => List.not_mem_nil (plain c member control)⟩
  · obtain ⟨row, col, cell, place, same⟩ := shows_draw_of_closed closed viewed
    obtain ⟨i, _, entry⟩ := Screen.get?_eq_some.mp place
    refine ⟨i, cell, entry, same, ?_⟩
    by_cases known : b.screen.known? i = some cell
    · exact .inl known
    · rw [← (spares_draw_of_closed closed).known i] at known
      exact .inr (same ▸ Screen.print_mem_flush entry known)

/-- The tab in front of a statement is drawn and printed. -/
theorem control_is_drawn_as_given_tab :
    let e := Editor.ofSource "demo" "\tcls" true
    let b := App.opened (12, 5) .standard e
    Key.isControl '\t' = true ∧ b.window = none ∧ b.InView '\t' ∧
      (∃ i cell, b.draw.screen.cell? i = some cell ∧ cell.ch = '\t') ∧ .print '\t' ∈ b.draw.flush.1 ∧
      '\t' ∈ givenBy e [] := by
  intro e b
  have viewed : b.InView '\t' := ⟨0, 0, ['\t', 'c', 'l', 's'], by decide, by decide, by decide, by decide⟩
  obtain ⟨cells, _, drawn⟩ := control_is_drawn_as_given (12, 5) .standard "demo" "\tcls" true [] (c := '\t') rfl
  obtain ⟨i, cell, entry, same, shown⟩ := drawn rfl viewed
  have printed : .print '\t' ∈ b.draw.flush.1 := by
    rcases shown with known | printed
    · cases Vector.eq_of_mem_replicate (Vector.mem_of_getElem? (Screen.known?_eq_some.mp known))
    · exact printed
  exact ⟨rfl, rfl, viewed, ⟨i, cell, entry, same⟩, printed, cells i cell entry same⟩

end App

end PocketBasic
