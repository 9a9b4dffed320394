import PocketBasic.Proofs.App.InStep

/-! # What becomes of an annotation

The fault of a run is shown in the pane until something better is known: until the program is started or
continued, its text is read again, or something else is annotated. A text that could not be read is
annotated too, and that annotation goes when a window is opened on the text; there is never a window on a
text that is annotated so.
-/

namespace PocketBasic.App

/-- The text is read again, and can be read. -/
def Happening.reloads : Happening → Bool
  | .input (some _) key => key.command? = some .reload
  | _ => false

/-- What a happening makes of the annotation in the pane. -/
inductive Pane (happening : Happening) (a b : App) : Prop where
  | kept (mark : b.editor.mark = a.editor.mark)
      (failed : b.editor.compileFailed = a.editor.compileFailed)
      (window : b.window.isSome = true → a.window.isSome = true)
  | started (before : a.lifecycle ≠ .started) (after : b.lifecycle = .started)
      (failed : b.editor.compileFailed = a.editor.compileFailed)
      (window : b.window.isSome = true → a.window.isSome = true)
      (dropped : b.editor.mark = none)
  /-- The window gives notice of a fault. -/
  | reported (event : SimEvent) (w : Window Computer) (fault : RunFault)
      (delivered : happening = .event event) (shown : a.window = some w)
      (told : (w.handle event a.loop).1 = some (.failed fault))
      (mark : b.editor.mark = some ⟨fault.span, fault.message⟩)
      (failed : b.editor.compileFailed = a.editor.compileFailed)
  /-- The text cannot be read, so there is no window on it. -/
  | unread (failed : b.editor.compileFailed = true) (closed : b.window = none)
  /-- The text could be read. -/
  | opened (failed : b.editor.compileFailed = false)
      (mark : a.editor.compileFailed = false → b.editor.mark = a.editor.mark)
      (dropped : b.editor.mark = a.editor.mark ∨ b.editor.mark = none)
  | reloaded (again : happening.reloads = true) (failed : b.editor.compileFailed = false)
      (dropped : b.editor.mark = none)

variable {a b : App} {w : Window Computer} {happening : Happening}

/-! ## The pane -/

theorem mark_showCursor (e : Editor) (rows : Nat) :
    (e.showCursor rows).mark = e.mark ∧ (e.showCursor rows).compileFailed = e.compileFailed := by
  obtain ⟨scroll, shown⟩ := e.exists_showCursor rows
  rw [shown]
  exact ⟨rfl, rfl⟩

theorem mark_navigate {e moved : Editor} {rows : Nat} {input : Input}
    (navigated : e.navigate? rows input = some moved) :
    moved.mark = e.mark ∧ moved.compileFailed = e.compileFailed := by
  obtain ⟨cursor, scroll, rfl⟩ := Editor.exists_navigate navigated
  exact ⟨rfl, rfl⟩

/-- Nobody has touched the pane. -/
theorem Pane.of_same (editor : b.editor = a.editor)
    (window : b.window.isSome = true → a.window.isSome = true) : Pane happening a b :=
  .kept (by rw [editor]) (by rw [editor]) window

/-- The cursor may move in the pane. -/
theorem Pane.editorEvent (editor : b.editor = a.editor)
    (window : b.window.isSome = true → a.window.isSome = true) (input : Input) :
    Pane happening a (b.editorEvent input) := by
  unfold App.editorEvent
  split
  · rename_i navigated
    obtain ⟨mark, failed⟩ := mark_navigate navigated
    rw [editor] at mark failed
    exact .kept mark failed window
  · exact .of_same editor window

/-! ## The lifecycle -/

theorem isSome_raise (a : App) (event : Lifecycle.Event) :
    (a.raise event).window.isSome = a.window.isSome := by
  unfold raise
  cases a.lifecycle.dispatch event with
  | mk transition lifecycle =>
      cases transition with
      | none => rfl
      | some t => cases window : a.window <;> rfl

/-- Only a start and a continue drop the annotation. -/
theorem pane_raise (a : App) (event : Lifecycle.Event) : Pane happening a (a.raise event) := by
  have window (shown : (a.raise event).window.isSome = true) : a.window.isSome = true :=
    (isSome_raise a event).symm.trans shown
  revert window
  unfold raise
  cases state : a.lifecycle with
  | stopped =>
      cases event with
      | start =>
          refine fun window =>
            .started (by rw [state]; exact Lifecycle.noConfusion) ?_ ?_ window ?_
          all_goals cases a.window <;> rfl
      | pause | cont | stop => exact fun window => .of_same rfl window
  | started =>
      cases event with
      | start | cont => exact fun window => .of_same rfl window
      | pause | stop => exact fun window => .of_same (by cases shown : a.window <;> rfl) window
  | paused =>
      cases event with
      | cont =>
          refine fun window =>
            .started (by rw [state]; exact Lifecycle.noConfusion) ?_ ?_ window ?_
          all_goals cases a.window <;> rfl
      | start | pause => exact fun window => .of_same rfl window
      | stop => exact fun window => .of_same (by cases shown : a.window <;> rfl) window

theorem editor_raise_stop (a : App) : (a.raise .stop).editor = a.editor := by
  unfold raise
  cases a.lifecycle with
  | stopped => rfl
  | started | paused => cases a.window <;> rfl

theorem editor_closeSimulator (a : App) : a.closeSimulator.editor = a.editor := by
  unfold closeSimulator
  dsimp only
  split <;> exact editor_raise_stop a

/-- A notice of a fault annotates it. -/
theorem mark_notice (a : App) (fault : RunFault) :
    (a.notice (.failed fault)).editor.mark = some ⟨fault.span, fault.message⟩ ∧
      (a.notice (.failed fault)).editor.compileFailed = a.editor.compileFailed := by
  unfold notice
  rw [editor_raise_stop]
  exact mark_showCursor _ _

/-- Any other notice leaves the pane alone. -/
theorem pane_stop (editor : b.editor = a.editor)
    (window : b.window.isSome = true → a.window.isSome = true) :
    Pane happening a (b.notice .stop) := by
  refine .of_same ((editor_raise_stop b).trans editor) fun shown => window ?_
  exact (isSome_raise b .stop).symm.trans shown

/-! ## Events -/

theorem pane_openSimulator (closed : a.window = none) : Pane happening a a.openSimulator := by
  unfold openSimulator
  split
  · have cleared (e : Editor) : e.clearScriptError.compileFailed = false ∧
        (e.compileFailed = false → e.clearScriptError.mark = e.mark) ∧
        (e.clearScriptError.mark = e.mark ∨ e.clearScriptError.mark = none) := by
      unfold Editor.clearScriptError
      cases failed : e.compileFailed with
      | true => exact ⟨rfl, nofun, .inr rfl⟩
      | false => exact ⟨failed, fun _ => rfl, .inl rfl⟩
    obtain ⟨failed, mark, dropped⟩ := cleared a.editor
    exact .opened failed mark dropped
  · rename_i e _
    exact .unread (mark_showCursor (a.editor.showScriptError e.line e.message) _).2 closed

theorem window_closeSimulator (a : App) : a.closeSimulator.window = none := by
  unfold closeSimulator
  dsimp only
  split
  · rfl
  · assumption

theorem pane_command (file : Option String) (input : Input) {command : Command}
    (named : input.command? = some command) : Pane (.input file input) a (a.run file command) := by
  have closed {b : App} (window : b.window = a.closeSimulator.window) (shown : b.window.isSome = true) :
      a.window.isSome = true := by
    rw [window, window_closeSimulator] at shown
    cases shown
  cases command with
  | startPause =>
      unfold run startPause
      cases a.lifecycle with
      | stopped =>
          cases closed : a.window with
          | none => exact pane_openSimulator closed
          | some w => exact pane_raise a .start
      | started => exact pane_raise a .pause
      | paused => exact pane_raise a .cont
  | focusInspector =>
      refine .of_same rfl fun shown => ?_
      rw [← Option.isSome_map (f := (·.toggleInspector))]
      exact shown
  | stop => exact pane_raise a .stop
  | closeSimulator | quit => exact .of_same (editor_closeSimulator a) (closed rfl)
  | reload =>
      cases file with
      | none => exact .of_same (editor_closeSimulator a) (closed rfl)
      | some source =>
          refine .reloaded ?_ rfl rfl
          rw [Happening.reloads, named]
          rfl

/-- Keys and the mouse only move the cursor of the pane. -/
theorem pane_mouseEvent (shown : a.window = some w) (input : Input) (row col : Nat)
    (bounds : CellRect) : Pane happening a (a.mouseEvent w input row col bounds) := by
  have window : a.window.isSome = true := by
    rw [shown]
    rfl
  have choice (first second : Bool) {x y z : App} (left : Pane happening a x) (middle : Pane happening a y)
      (right : Pane happening a z) :
      Pane happening a (if first then x else if second then y else z) := by
    split
    · exact left
    · split
      · exact middle
      · exact right
  refine choice _ _ (.of_same ?_ fun _ => window) (.editorEvent ?_ (fun _ => window) input)
    (.editorEvent ?_ (fun _ => window) input)
  all_goals rfl

theorem pane_keyEvent (shown : a.window = some w) (input : Input) (bounds : CellRect) :
    Pane happening a (a.keyEvent w input bounds) := by
  have window : a.window.isSome = true := by
    rw [shown]
    rfl
  unfold App.keyEvent
  split
  · dsimp only
    split
    · exact .of_same rfl fun _ => window
    · refine .editorEvent ?_ (fun _ => window) input
      rfl
  · split
    · exact .of_same rfl fun _ => window
    · exact .editorEvent rfl id input

/-- A dialog gives notice that it was cancelled, and of nothing else. -/
theorem notice_dialogEvent {input : Input} {bounds : CellRect} {loop : EventLoop SimEvent} {n : Notice}
    (told : (w.dialogEvent input bounds loop).1 = some n) : n = .stop := by
  unfold Window.dialogEvent at told
  split at told
  · cases told
  · split at told
    all_goals
      cases told
    rfl

theorem pane_dialogEvent (shown : a.window = some w) (input : Input) (bounds : CellRect) :
    Pane happening a (a.dialogEvent w input bounds) := by
  have window : a.window.isSome = true := by
    rw [shown]
    rfl
  unfold App.dialogEvent
  split
  · exact .of_same rfl id
  · dsimp only
    split
    · rename_i n told
      cases notice_dialogEvent told
      refine pane_stop ?_ fun _ => window
      rfl
    · exact .of_same rfl fun _ => window

theorem pane_handle (file : Option String) (input : Input) :
    Pane (.input file input) a (a.handle file input) := by
  unfold App.handle
  split
  · rename_i named
    exact pane_command file input named
  · split
    · rename_i shown _
      split
      · exact pane_dialogEvent shown input _
      · split
        · exact pane_mouseEvent shown input _ _ _
        · exact pane_keyEvent shown input _
    · exact .editorEvent rfl id input

theorem pane_handleSim (event : SimEvent) : Pane (.event event) a (a.handleSim event) := by
  unfold App.handleSim
  split
  · exact .of_same rfl id
  · rename_i w shown
    have window : a.window.isSome = true := by
      rw [shown]
      rfl
    dsimp only
    split
    · rename_i n told
      cases n with
      | stop =>
          refine pane_stop ?_ fun _ => window
          rfl
      | failed fault =>
          obtain ⟨mark, failed⟩ := mark_notice (a.settle (w.handle event a.loop).2) fault
          exact .reported event w fault rfl shown told mark failed
    · exact .of_same rfl fun _ => window

theorem pane_happen (a : App) (happening : Happening) : Pane happening a (a.happen happening) := by
  cases happening with
  | input file input => exact pane_handle file input
  | paste text =>
      refine .of_same rfl fun shown => ?_
      rw [← Option.isSome_map (f := (·.paste text))]
      exact shown
  | event event => exact pane_handleSim event
  | drain | advance | draw | flush => exact .of_same rfl id
  | fit size =>
      rw [happen, App.fit]
      split <;> exact .of_same rfl id

/-! ## Runs -/

/-- There is no window on a text that could not be read. -/
def Legible (a : App) : Prop := a.window.isSome = true → a.editor.compileFailed = false

theorem Legible.happen (legible : a.Legible) (happening : Happening) :
    (a.happen happening).Legible := by
  intro shown
  cases pane_happen a happening with
  | kept _ failed window | started _ _ failed window => exact failed.trans (legible (window shown))
  | reported _ _ _ _ before _ _ failed => exact failed.trans (legible (by rw [before]; rfl))
  | unread _ closed =>
      rw [closed] at shown
      cases shown
  | opened failed | reloaded _ failed => exact failed

/-- The pane shows the fault of a run. -/
structure Annotated (mark : Mark) (a : App) : Prop where
  mark : a.editor.mark = some mark
  legible : a.editor.compileFailed = false

/-- What takes an annotation away: the program is started or continued, its text is read again, or something
    else is annotated in its place, be it that the text cannot be read. -/
inductive Unmarks (mark : Mark) (a : App) (happening : Happening) : Prop where
  | started (before : a.lifecycle ≠ .started) (after : (a.happen happening).lifecycle = .started)
  | reloaded (again : happening.reloads = true)
  | replaced (other : Mark) (differs : other ≠ mark)
      (shown : (a.happen happening).editor.mark = some other)
  | unread (failed : (a.happen happening).editor.compileFailed = true)

theorem Annotated.happen {mark : Mark} (annotated : Annotated mark a) (happening : Happening) :
    Annotated mark (a.happen happening) ∨ Unmarks mark a happening := by
  cases pane_happen a happening with
  | kept same failed => exact .inl ⟨same.trans annotated.mark, failed.trans annotated.legible⟩
  | started before after => exact .inr (.started before after)
  | reported _ _ fault _ _ _ shown failed =>
      by_cases again : (⟨fault.span, fault.message⟩ : Mark) = mark
      · exact .inl ⟨shown.trans (congrArg some again), failed.trans annotated.legible⟩
      · exact .inr (.replaced _ again shown)
  | unread failed => exact .inr (.unread failed)
  | opened failed same => exact .inl ⟨(same annotated.legible).trans annotated.mark, failed⟩
  | reloaded again => exact .inr (.reloaded again)

/-- An annotation stays until something takes it away. -/
theorem Annotated.stays {mark : Mark} (annotated : Annotated mark a) (happenings : List Happening) :
    Annotated mark (happenings.foldl App.happen a) ∨
      ∃ before happening after, happenings = before ++ happening :: after ∧
        Annotated mark (before.foldl App.happen a) ∧
        Unmarks mark (before.foldl App.happen a) happening := by
  induction happenings generalizing a with
  | nil => exact .inl annotated
  | cons happening rest ih =>
      cases annotated.happen happening with
      | inr unmarked => exact .inr ⟨[], happening, rest, rfl, annotated, unmarked⟩
      | inl still =>
          obtain shown | ⟨before, next, after, same, unmarked⟩ := ih still
          · exact .inl shown
          · exact .inr ⟨happening :: before, next, after, by rw [same]; rfl, unmarked⟩

/-- What is annotated while there is a window is the fault that the window has just given notice of. -/
theorem reported_of_mark {mark : Mark} (shown : (a.happen happening).window.isSome = true)
    (annotated : (a.happen happening).editor.mark = some mark) (fresh : a.editor.mark ≠ some mark) :
    ∃ event w fault, happening = .event event ∧ a.window = some w ∧
      (w.handle event a.loop).1 = some (.failed fault) ∧ mark = ⟨fault.span, fault.message⟩ := by
  cases pane_happen a happening with
  | kept same =>
      rw [same] at annotated
      exact absurd annotated fresh
  | started _ _ _ _ dropped | reloaded _ _ dropped =>
      rw [dropped] at annotated
      cases annotated
  | reported event w fault delivered before told same =>
      rw [same] at annotated
      cases annotated
      exact ⟨event, w, fault, delivered, before, told, rfl⟩
  | unread _ closed =>
      rw [closed] at shown
      cases shown
  | opened _ _ dropped =>
      obtain same | dropped := dropped
      · rw [same] at annotated
        exact absurd annotated fresh
      · rw [dropped] at annotated
        cases annotated

end PocketBasic.App
