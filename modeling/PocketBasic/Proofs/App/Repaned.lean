import PocketBasic.Proofs.App.Annotation
import PocketBasic.Proofs.App.Live

/-! # What becomes of the pane

Whatever happens to an application, its pane comes out in one of four ways: with the lines it had and no other mark,
with the mark of a fault that the window has told, with the mark of a text that could not be read, or with another
text and no mark at all.
-/

namespace PocketBasic.App

/-- A pane after something has happened to the application. -/
inductive Repaned (a : App) (e : Editor) : Prop where
  | kept (lines : e.lines = a.editor.lines) (mark : e.mark = a.editor.mark ∨ e.mark = none)
  | faulted {w : Window Computer} {event : SimEvent} {fault : RunFault} (shown : a.window = some w)
      (told : (w.handle event a.loop).1 = some (.failed fault)) (lines : e.lines = a.editor.lines)
      (mark : e.mark = some ⟨fault.span, fault.message⟩)
  | refused {error : ScriptError} (refused : Computer.load a.editor.source = .error error)
      (lines : e.lines = a.editor.lines) (mark : e.mark = (a.editor.showScriptError error.line error.message).mark)
  | reloaded {source : String} (lines : e.lines = Editor.linesOf source) (mark : e.mark = none)

variable {a b : App} {w : Window Computer}

theorem Repaned.of_same (editor : b.editor = a.editor) : a.Repaned b.editor :=
  .kept (by rw [editor]) (.inl (by rw [editor]))

theorem Repaned.editorEvent (editor : b.editor = a.editor) (input : Input) :
    a.Repaned (b.editorEvent input).editor := by
  unfold App.editorEvent
  split
  · rename_i navigated
    obtain ⟨mark, -⟩ := mark_navigate navigated
    rw [editor] at mark
    exact .kept ((Editor.lines_navigate navigated).trans (by rw [editor])) (.inl mark)
  · exact .of_same editor

/-! ## Commands -/

theorem repaned_raise (a : App) (event : Lifecycle.Event) : a.Repaned (a.raise event).editor := by
  have cleared (clears : Bool) : a.Repaned (if clears then a.editor.clearMark else a.editor) := by
    cases clears with
    | true => exact .kept rfl (.inr rfl)
    | false => exact .kept rfl (.inl rfl)
  unfold raise
  split
  · exact .of_same rfl
  · dsimp only
    split <;> exact cleared _

theorem repaned_openSimulator (a : App) : a.Repaned a.openSimulator.editor := by
  unfold openSimulator
  split
  · refine .kept (Editor.lines_clearScriptError _) ?_
    unfold Editor.clearScriptError
    split
    · exact .inr rfl
    · exact .inl rfl
  · rename_i error refused
    refine .refused refused (Editor.lines_showCursor (a.editor.showScriptError error.line error.message) _) ?_
    exact (mark_showCursor _ _).1

theorem repaned_run (a : App) (file : Option String) (command : Command) : a.Repaned (a.run file command).editor := by
  cases command with
  | startPause =>
      change a.Repaned a.startPause.editor
      unfold startPause
      split
      · exact repaned_openSimulator a
      all_goals exact repaned_raise a _
  | focusInspector => exact .of_same rfl
  | stop => exact repaned_raise a .stop
  | closeSimulator | quit => exact .of_same (editor_closeSimulator a)
  | reload =>
      cases file with
      | none => exact .of_same (editor_closeSimulator a)
      | some source => exact .reloaded rfl rfl

/-! ## Events -/

theorem repaned_dialogEvent (a : App) (w : Window Computer) (input : Input) (bounds : CellRect) :
    a.Repaned (a.dialogEvent w input bounds).editor := by
  unfold App.dialogEvent
  split
  · exact .of_same rfl
  · dsimp only
    split
    · rename_i n told
      cases notice_dialogEvent told
      exact .of_same (editor_raise_stop _)
    · exact .of_same rfl

theorem repaned_keyEvent (a : App) (w : Window Computer) (input : Input) (bounds : CellRect) :
    a.Repaned (a.keyEvent w input bounds).editor := by
  unfold App.keyEvent
  split
  · dsimp only
    split
    · exact .of_same rfl
    · exact .editorEvent (by rfl) input
  · split
    · exact .of_same rfl
    · exact .editorEvent rfl input

theorem repaned_handle (a : App) (file : Option String) (input : Input) :
    a.Repaned (a.handle file input).editor := by
  unfold App.handle
  split
  · exact repaned_run a file _
  · split
    · split
      · exact repaned_dialogEvent a _ input _
      · split
        · refine a.mouseEvent_cases (motive := fun b => a.Repaned b.editor) _ input _ _ _ fun state _ => ?_
          exact ⟨.of_same rfl, .editorEvent (by rfl) input, .editorEvent (by rfl) input⟩
        · exact repaned_keyEvent a _ input _
    · exact .editorEvent rfl input

theorem repaned_handleSim (a : App) (event : SimEvent) : a.Repaned (a.handleSim event).editor := by
  unfold App.handleSim
  split
  · exact .of_same rfl
  · rename_i w shown
    dsimp only
    split
    · rename_i n told
      cases n with
      | stop => exact .of_same (editor_raise_stop _)
      | failed fault =>
          refine .faulted shown told ?_ (mark_notice _ fault).1
          unfold notice
          rw [editor_raise_stop]
          exact Editor.lines_showCursor _ _
    · exact .of_same rfl

theorem repaned_happen (a : App) (happening : Happening) : a.Repaned (a.happen happening).editor := by
  cases happening with
  | input file input => exact repaned_handle a file input
  | event event => exact repaned_handleSim a event
  | paste | drain | advance | draw | flush => exact .of_same rfl
  | fit size =>
      rw [happen, App.fit]
      split <;> exact .of_same rfl

end PocketBasic.App
