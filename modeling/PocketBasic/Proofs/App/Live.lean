import PocketBasic.App
import PocketBasic.Proofs.Simulator.Window

/-! # The application keeps its program live

Without a window the program is stopped and nothing is left on the loop; with one, the window is live
under the lifecycle of the application. Every event of the user and every event of the loop keeps it so: a
notice is acted on before the next event is looked at.
-/

namespace PocketBasic.App

variable {a other : App} {batch : List SimEvent}

/-- The window is live, if there is one, with a batch that is drained and not handled yet. -/
structure Live (batch : List SimEvent) (a : App) : Prop where
  closed : a.window = none →
    a.lifecycle = .stopped ∧ a.loop.posted = [] ∧ a.loop.timers = []
  opened : ∀ w, a.window = some w → w.Live batch a.lifecycle a.loop

/-- The run is to be stopped before anything else happens. -/
def Ending (batch : List SimEvent) (a : App) : Prop :=
  ∃ w, a.window = some w ∧ (w.bench a.loop).Steady batch a.lifecycle ∧ a.lifecycle ≠ .stopped

theorem Live.of_window {w : Window Computer} (shown : a.window = some w)
    (live : w.Live batch a.lifecycle a.loop) : a.Live batch := by
  refine ⟨fun closed => ?_, fun other same => ?_⟩
  · rw [shown] at closed
    cases closed
  · rw [shown] at same
    cases same
    exact live

/-- The screen, the settings and the pane do not count. -/
theorem Live.of_same (live : a.Live batch) (lifecycle : other.lifecycle = a.lifecycle)
    (window : other.window = a.window) (loop : other.loop = a.loop) : other.Live batch := by
  refine ⟨fun closed => ?_, fun w shown => ?_⟩
  · rw [lifecycle, loop]
    rw [window] at closed
    exact live.closed closed
  · rw [lifecycle, loop]
    rw [window] at shown
    exact live.opened w shown

theorem Live.settle {state : Window Computer × EventLoop SimEvent}
    (settled : state.1.Live batch a.lifecycle state.2) : (a.settle state).Live batch :=
  .of_window rfl settled

theorem Live.mapWindow (live : a.Live batch) {f : Window Computer → Window Computer}
    (keeps : ∀ w, w.Live batch a.lifecycle a.loop → (f w).Live batch a.lifecycle a.loop) :
    Live batch { a with window := a.window.map f } := by
  refine ⟨fun closed => live.closed (Option.map_eq_none_iff.mp closed), fun w shown => ?_⟩
  obtain ⟨before, opened, rfl⟩ := Option.map_eq_some_iff.mp shown
  exact keeps before (live.opened before opened)

/-! ## The lifecycle -/

/-- Every transition of a live application leads to a live one. A start needs a window. -/
theorem Live.raise (live : a.Live batch) (event : Lifecycle.Event)
    (shown : event = .start → a.window.isSome = true) : (a.raise event).Live batch := by
  obtain ⟨screen, settings, lifecycle, editor, window, loop, quit⟩ := a
  cases window with
  | none =>
      obtain ⟨stopped, _⟩ := live.closed rfl
      cases stopped
      cases event with
      | start => cases shown rfl
      | pause | cont | stop => exact live
  | some w =>
      have opened := live.opened w rfl
      cases lifecycle with
      | stopped =>
          cases event with
          | start => exact .of_window rfl (Window.live_started opened.bench.toSteady .start)
          | pause | cont | stop => exact live
      | started =>
          cases event with
          | pause => exact .of_window rfl (Window.live_paused opened .pause)
          | stop => exact .of_window rfl (Window.live_stopped opened.bench.toSteady .started .stop)
          | start | cont => exact live
      | paused =>
          cases event with
          | cont => exact .of_window rfl (Window.live_continued opened .cont)
          | stop => exact .of_window rfl (Window.live_stopped opened.bench.toSteady .paused .stop)
          | start | pause => exact live

/-- A stop restores what the end of a run has broken. -/
theorem Ending.raise (ending : a.Ending batch) : (a.raise .stop).Live batch := by
  obtain ⟨screen, settings, lifecycle, editor, window, loop, quit⟩ := a
  obtain ⟨w, shown, steady, running⟩ := ending
  cases shown
  cases lifecycle with
  | stopped => exact absurd rfl running
  | started => exact .of_window rfl (Window.live_stopped steady .started .stop)
  | paused => exact .of_window rfl (Window.live_stopped steady .paused .stop)

theorem Ending.notice (ending : a.Ending batch) (n : Notice) : (a.notice n).Live batch := by
  cases n with
  | stop => exact ending.raise
  | failed fault =>
      have marked : Ending batch { a with editor := a.editor.showFault fault } := ending
      exact Ending.raise marked

/-! ## Commands -/

theorem Live.openSimulator (live : a.Live []) (closed : a.window = none) :
    a.openSimulator.Live [] := by
  obtain ⟨stopped, posted, timers⟩ := live.closed closed
  unfold App.openSimulator
  split
  · refine .of_window rfl ?_
    rw [stopped]
    exact Window.live_opened _ _ _ posted timers
  · exact live.of_same rfl rfl rfl

theorem lifecycle_raise_stop (a : App) : (a.raise .stop).lifecycle = .stopped := by
  obtain ⟨screen, settings, lifecycle, editor, window, loop, quit⟩ := a
  cases lifecycle <;> cases window <;> rfl

/-- What is left on the loop goes with the window. -/
theorem Live.closeSimulator (live : a.Live batch) : a.closeSimulator.Live batch := by
  have stopped := a.lifecycle_raise_stop
  unfold App.closeSimulator
  dsimp only
  split
  · exact ⟨fun _ => ⟨stopped, rfl, rfl⟩, fun w shown => by cases shown⟩
  · exact live.raise .stop Lifecycle.Event.noConfusion

theorem Live.startPause (live : a.Live []) : a.startPause.Live [] := by
  unfold App.startPause
  split
  · rename_i closed
    exact live.openSimulator closed
  · rename_i shown
    exact live.raise .start fun _ => by rw [shown]; rfl
  · exact live.raise .pause Lifecycle.Event.noConfusion
  · exact live.raise .cont Lifecycle.Event.noConfusion

theorem Live.run (live : a.Live []) (file : Option String) (command : Command) :
    (a.run file command).Live [] := by
  cases command with
  | startPause => exact live.startPause
  | focusInspector => exact live.mapWindow fun _ opened => opened.of_same rfl rfl rfl
  | stop => exact live.raise .stop Lifecycle.Event.noConfusion
  | closeSimulator => exact live.closeSimulator
  | reload =>
      unfold App.run
      dsimp only
      split
      · exact live.closeSimulator.of_same rfl rfl rfl
      · exact live.closeSimulator
  | quit => exact live.closeSimulator.of_same rfl rfl rfl

/-! ## Keys and the mouse -/

theorem Live.editorEvent (live : a.Live batch) (input : Input) : (a.editorEvent input).Live batch := by
  unfold App.editorEvent
  split
  · exact live.of_same rfl rfl rfl
  · exact live

/-- A notice of the window is acted on at once. -/
theorem Live.of_handled {result : Option Notice × Window Computer × EventLoop SimEvent}
    (handled : Window.Handled batch a.lifecycle result) :
    Live batch (match result.1 with
      | some n => (a.settle result.2).notice n
      | none => a.settle result.2) := by
  obtain ⟨notice, w, loop⟩ := result
  cases notice with
  | none => exact .settle handled
  | some n =>
      have ending : Ending batch (a.settle (w, loop)) := ⟨w, rfl, handled.1, handled.2⟩
      exact ending.notice n

theorem Live.dialogEvent (live : a.Live batch) {w : Window Computer} (shown : a.window = some w)
    (input : Input) (bounds : CellRect) : (a.dialogEvent w input bounds).Live batch := by
  have handled := (live.opened w shown).dialogEvent input bounds
  unfold App.dialogEvent
  split
  · exact live
  · exact .of_handled handled

/-- A mouse event reaches the window or does not; whether it goes on to the pane, and takes the keyboard from the
    inspector, depends on where it was and on what the window made of it. -/
theorem mouseEvent_cases {motive : App → Prop} (a : App) (w : Window Computer) (input : Input) (row col : Nat)
    (bounds : CellRect)
    (reached : ∀ state, state = (w.mouseEvent input bounds a.loop).2 ∨ state = (w, a.loop) →
      motive (a.settle state) ∧ motive ((a.settle state).editorEvent input) ∧
        motive ((a.settle (state.1.blurInspector, state.2)).editorEvent input)) :
    motive (a.mouseEvent w input row col bounds) := by
  unfold App.mouseEvent
  dsimp only
  generalize (_ || bounds.contains row col) = reaches
  generalize (!bounds.contains row col && _) = clicksBeside
  have settled : ∀ state : Bool × Window Computer × EventLoop SimEvent,
      state = (if reaches = true then w.mouseEvent input bounds a.loop else (false, w, a.loop)) →
        state.2 = (w.mouseEvent input bounds a.loop).2 ∨ state.2 = (w, a.loop) := by
    rintro _ rfl
    cases reaches with
    | true => exact .inl rfl
    | false => exact .inr rfl
  generalize chosen : (if reaches = true then _ else _ : Bool × Window Computer × EventLoop SimEvent) = state
  obtain ⟨kept, passed, blurred⟩ := reached state.2 (settled state chosen.symm)
  split
  · exact kept
  · split
    · exact blurred
    · exact passed

theorem Live.mouseEvent (live : a.Live batch) {w : Window Computer} (shown : a.window = some w)
    (input : Input) (row col : Nat) (bounds : CellRect) :
    (a.mouseEvent w input row col bounds).Live batch := by
  have opened := live.opened w shown
  refine a.mouseEvent_cases w input row col bounds fun state touched => ?_
  have settled : state.1.Live batch a.lifecycle state.2 := by
    rcases touched with rfl | rfl
    · exact opened.mouseEvent input bounds
    · exact opened
  have kept : Live batch (a.settle state) := .settle settled
  have blurred : Live batch (a.settle (state.1.blurInspector, state.2)) := .settle (settled.of_same rfl rfl rfl)
  exact ⟨kept, kept.editorEvent input, blurred.editorEvent input⟩

theorem Live.keyEvent (live : a.Live batch) {w : Window Computer} (shown : a.window = some w)
    (input : Input) (bounds : CellRect) : (a.keyEvent w input bounds).Live batch := by
  have opened := live.opened w shown
  unfold App.keyEvent
  split
  · have edited : Live batch { a with window := some (w.inspectorEvent input bounds).2 } :=
      .of_window rfl (opened.inspectorEvent input bounds)
    dsimp only
    split
    · exact edited
    · exact edited.editorEvent input
  · split
    · exact .settle (opened.pressKey _)
    · exact live.editorEvent input

theorem Live.handle (live : a.Live []) (file : Option String) (input : Input) :
    (a.handle file input).Live [] := by
  unfold App.handle
  split
  · exact live.run file _
  · split
    · rename_i w bounds shown _
      split
      · exact live.dialogEvent shown input bounds
      · split
        · exact live.mouseEvent shown input _ _ bounds
        · exact live.keyEvent shown input bounds
    · exact live.editorEvent input

/-! ## Events of the loop -/

theorem Live.handleSim {event : SimEvent} (live : a.Live (event :: batch)) :
    (a.handleSim event).Live batch := by
  unfold App.handleSim
  split
  · rename_i closed
    refine ⟨live.closed, fun w shown => ?_⟩
    rw [closed] at shown
    cases shown
  · rename_i w shown
    exact .of_handled (live.opened w shown).handle

/-- A batch is handled to its end. -/
theorem Live.handleAll {events : List SimEvent} (live : a.Live events) :
    (events.foldl App.handleSim a).Live [] := by
  induction events generalizing a with
  | nil => exact live
  | cons event rest ih => exact ih live.handleSim

theorem Live.pump (live : a.Live []) : a.pump.2.Live [] := by
  have drained : Live a.loop.drain.1 { a with loop := a.loop.drain.2 } := by
    refine ⟨fun closed => ?_, fun w shown => ?_⟩
    · obtain ⟨stopped, _, timers⟩ := live.closed closed
      refine ⟨stopped, rfl, ?_⟩
      simp only [EventLoop.drain, timers, List.filterMap_nil]
    · have opened := live.opened w shown
      exact ⟨opened.bench.drain, opened.dialog, opened.shown⟩
  exact drained.handleAll

end PocketBasic.App
