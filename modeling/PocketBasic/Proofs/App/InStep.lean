import PocketBasic.Proofs.App.Turn
import PocketBasic.Proofs.Simulator.InStep

/-! # Lifecycle, window and loop of the application

Whatever the user and the loop do to an application, in whatever order: without a window the program is
stopped and nothing is left on the loop, and with one the window is in step with the lifecycle. An event of
the loop may come at any time here, also between the events of a batch that has been drained and even if
it was never on the loop.
-/

namespace PocketBasic.App

/-- What can happen to an application. -/
inductive Happening where
  /-- A key or a mouse event; `file` is what the program's file holds by then. -/
  | input (file : Option String) (input : Input)
  | paste (text : List Char)
  /-- An event of the simulator is handled. -/
  | event (event : SimEvent)
  /-- What is ready is taken off the loop. -/
  | drain
  | advance (ms : Nat)
  | fit (size : Nat × Nat)
  | draw
  | flush
  deriving Repr, DecidableEq

def happen (a : App) : Happening → App
  | .input file input => a.handle file input
  | .paste text => { a with window := a.window.map (·.paste text) }
  | .event event => a.handleSim event
  | .drain => { a with loop := a.loop.drain.2 }
  | .advance ms => { a with loop := a.loop.advance ms }
  | .fit size => a.fit size
  | .draw => a.draw
  | .flush => a.flush.2

/-- What comes of a happening. -/
def deed (a : App) : Happening → Deed
  | .input _ input => a.inputDeed input
  | .paste text => .act (.touch (.paste text))
  | .event event => .act (.touch (.event event))
  | .drain => .act (.touch .drain)
  | .advance ms => .act (.touch (.advance ms))
  | .fit _ | .draw | .flush => .nothing

/-- While there is a window, whatever happens is a deed of its host. -/
theorem turn_happen {a : App} {w : Window Computer} (shown : a.window = some w)
    (happening : Happening) : Turn a (a.deed happening) (a.happen happening) := by
  have unseen {b : App} (lifecycle : b.lifecycle = a.lifecycle) (window : b.window = a.window)
      (loop : b.loop = a.loop) (editor : b.editor = a.editor) : Turn a .nothing b :=
    .kept lifecycle window loop fun _ => by rw [editor]
  cases happening with
  | input file input =>
      refine turn_handle (fun closed => ?_) file input
      rw [shown] at closed
      cases closed
  | paste text => exact .touched shown ⟨rfl, congrArg (Option.map _) shown, rfl, rfl⟩
  | event event => exact turn_handleSim shown event
  | drain => exact .touched shown ⟨rfl, shown, rfl, rfl⟩
  | advance ms => exact .touched shown ⟨rfl, shown, rfl, rfl⟩
  | fit size =>
      rw [happen, App.fit]
      split <;> exact unseen rfl rfl rfl rfl
  | draw | flush => exact unseen rfl rfl rfl rfl

/-- An application, and whether the program in its window has been started since the window was opened. -/
structure Story where
  app : App
  begun : Bool

def Story.next (s : Story) (happening : Happening) : Story :=
  let app := s.app.happen happening
  ⟨app, app.window.isSome && (s.begun || decide (app.lifecycle ≠ .stopped))⟩

/-- Nothing is left of a window that was closed, and a window that is open is in step and shows a program
    that can be read. -/
structure InStep (begun : Bool) (a : App) : Prop where
  closed : a.window = none → a.lifecycle = .stopped ∧ a.loop.posted = [] ∧ a.loop.timers = []
  fresh : a.window = none → begun = false
  shown : ∀ w, a.window = some w → (a.hosting w).InStep begun
  readable : ∀ e, Computer.load a.editor.source = .error e → a.window = none

namespace InStep

variable {a b : App} {begun : Bool}

theorem opened (size : Nat × Nat) (settings : SimulatorSettings) (editor : Editor) :
    (App.opened size settings editor).InStep false :=
  ⟨fun _ => ⟨rfl, rfl, rfl⟩, fun _ => rfl, (fun w shown => by cases shown), fun _ _ => rfl⟩

theorem idle (inStep : a.InStep begun) (closed : a.window = none) : a.lifecycle = .stopped :=
  (inStep.closed closed).1

/-- A program that runs or is paused has been started. -/
theorem told {h : Host Computer} (inStep : h.InStep begun) :
    h.InStep (begun || decide (h.lifecycle ≠ .stopped)) := by
  by_cases stopped : h.lifecycle = .stopped
  · rw [stopped, show decide _ = false from rfl, Bool.or_false]
    exact inStep
  · cases inStep.begun stopped
    exact inStep

theorem source_eq (lines : b.editor.lines = a.editor.lines) : b.editor.source = a.editor.source := by
  rw [Editor.source, Editor.source, lines]

/-- Without a window there is nothing to be in step with. -/
theorem of_closed (window : b.window = none)
    (nothing : b.lifecycle = .stopped ∧ b.loop.posted = [] ∧ b.loop.timers = []) (begun : Bool) :
    b.InStep (b.window.isSome && begun) := by
  refine ⟨fun _ => nothing, fun _ => ?_, fun w shown => ?_, fun _ _ => window⟩
  · rw [window, Option.isSome_none, Bool.false_and]
  · rw [window] at shown
    cases shown

/-- The application is in step where its host is, in front of a text that can be read. -/
theorem of_took {h : Host Computer} (took : a.Took h b)
    (inStep : h.InStep (begun || decide (h.lifecycle ≠ .stopped)))
    (readable : ∀ e, Computer.load a.editor.source ≠ .error e) :
    b.InStep (b.window.isSome && (begun || decide (b.lifecycle ≠ .stopped))) := by
  rw [took.window, took.lifecycle, Option.isSome_some, Bool.true_and]
  refine ⟨fun closed => ?_, fun closed => ?_, fun w shown => ?_, fun e unreadable => ?_⟩
  · rw [took.window] at closed
    cases closed
  · rw [took.window] at closed
    cases closed
  · rw [took.window] at shown
    cases shown
    rw [hosting, took.lifecycle, took.loop]
    exact inStep
  · rw [source_eq took.lines] at unreadable
    exact absurd unreadable (readable e)

theorem turn {deed : Deed} (inStep : a.InStep begun) (turn : Turn a deed b) :
    b.InStep (b.window.isSome && (begun || decide (b.lifecycle ≠ .stopped))) := by
  have readable {w : Window Computer} (shown : a.window = some w) (e : ScriptError) :
      Computer.load a.editor.source ≠ .error e := by
    intro unreadable
    have closed := inStep.readable e unreadable
    rw [shown] at closed
    cases closed
  cases turn with
  | kept lifecycle window loop lines =>
      cases shown : a.window with
      | none =>
          refine of_closed (window.trans shown) ?_ _
          rw [lifecycle, loop]
          exact inStep.closed shown
      | some w =>
          have took : a.Took (a.hosting w) b :=
            ⟨lifecycle, window.trans shown, loop, lines (by rw [shown]; rfl)⟩
          exact of_took took (told (inStep.shown w shown)) (readable shown)
  | @hosted _ _ act shown took =>
      refine of_took took ?_ (readable shown)
      cases act with
      | raise event => exact Host.InStep.raise (inStep.shown _ shown) event
      | touch act => exact told (Host.InStep.touch (inStep.shown _ shown) act)
  | opened closed loaded took =>
      refine of_took took (told ?_) fun e unreadable => ?_
      · rw [Host.InStep, hosting, inStep.fresh closed, inStep.idle closed]
        exact Window.inStep_opened _ _ _
      · rw [loaded] at unreadable
        cases unreadable
  | closed shown lifecycle window loop =>
      refine of_closed window ⟨lifecycle.trans (Host.lifecycle_raise_stop _), ?_, ?_⟩ _
      all_goals
        rw [loop]
        rfl

theorem next {s : Story} (inStep : s.app.InStep s.begun) (happening : Happening) :
    (s.next happening).app.InStep (s.next happening).begun := by
  cases shown : s.app.window with
  | some w => exact inStep.turn (turn_happen shown happening)
  | none =>
      obtain ⟨stopped, posted, timers⟩ := inStep.closed shown
      -- Without a window the loop is empty and stays so.
      have idle {b : App} (window : b.window = s.app.window) (lifecycle : b.lifecycle = s.app.lifecycle)
          (loop : b.loop.posted = [] ∧ b.loop.timers = []) :
          b.InStep (b.window.isSome && (s.begun || decide (b.lifecycle ≠ .stopped))) :=
        of_closed (window.trans shown) ⟨lifecycle.trans stopped, loop⟩ _
      cases happening with
      | input file input => exact inStep.turn (turn_handle inStep.idle file input)
      | paste text =>
          refine idle ?_ rfl ⟨posted, timers⟩
          rw [happen, shown]
          rfl
      | event event =>
          have dropped : s.app.happen (.event event) = s.app := by
            rw [happen, App.handleSim, shown]
          refine idle ?_ ?_ ?_
          all_goals rw [dropped]
          exact ⟨posted, timers⟩
      | drain =>
          refine idle rfl rfl ⟨rfl, ?_⟩
          simp only [happen, EventLoop.drain, timers, List.filterMap_nil]
      | advance ms => exact idle rfl rfl ⟨posted, timers⟩
      | fit size =>
          unfold Story.next happen App.fit
          dsimp only
          split <;> exact idle rfl rfl ⟨posted, timers⟩
      | draw | flush => exact idle rfl rfl ⟨posted, timers⟩

theorem story {s : Story} (inStep : s.app.InStep s.begun) (happenings : List Happening) :
    (happenings.foldl Story.next s).app.InStep (happenings.foldl Story.next s).begun := by
  induction happenings generalizing s with
  | nil => exact inStep
  | cons happening rest ih => exact ih (inStep.next happening)

end InStep

/-- Whatever happens to an application: without a window the program is stopped and the loop is empty; with
    one, the flags of the scheduler, the timer of the picture, the dialog and the status all agree with the
    lifecycle. There is no window on a program that cannot be read. -/
theorem window_in_step (size : Nat × Nat) (settings : SimulatorSettings) (editor : Editor)
    (happenings : List Happening) :
    let story := happenings.foldl Story.next ⟨.opened size settings editor, false⟩
    let a := story.app
    (a.window = none → a.lifecycle = .stopped ∧ a.loop.posted = [] ∧ a.loop.timers = []) ∧
      (∀ w, a.window = some w →
        (w.scheduler.running = true ↔ a.lifecycle ≠ .stopped) ∧
          (w.scheduler.paused = true ↔ a.lifecycle = .paused) ∧
          (w.scheduler.repaint.isActive = true ↔ w.scheduler.running = true) ∧
          (w.dialog.isSome = true ↔ w.scheduler.isPrompting = true) ∧
          (w.dialog.isSome = true → a.lifecycle ≠ .stopped) ∧
          w.status = if story.begun then a.lifecycle.status else .ready) ∧
      ∀ e, Computer.load a.editor.source = .error e → a.window = none := by
  intro story a
  have inStep : a.InStep story.begun := InStep.story (s := ⟨_, false⟩) (.opened size settings editor) happenings
  refine ⟨inStep.closed, fun w shown => ?_, inStep.readable⟩
  have window : w.InStep a.lifecycle story.begun := inStep.shown w shown
  refine ⟨?_, ?_, ?_, ?_, window.shown, window.status⟩
  · rw [window.running, decide_eq_true_iff]
  · rw [window.paused, decide_eq_true_iff]
  · rw [window.sampled]
  · rw [window.dialog]

/-- A program that asks for a value has been opened and started; a text that is no program opens nothing. -/
theorem window_in_step_asking :
    let f5 : Happening := .input none (.function 5)
    let asking := [f5, f5, .event .runStep, .event .runStep].foldl Story.next
      ⟨.opened (80, 60) .standard (.ofSource "ask" "input A" true), false⟩
    let unread := [f5].foldl Story.next
      ⟨.opened (80, 60) .standard (.ofSource "ask" "ask for A" true), false⟩
    (∃ w, asking.app.window = some w ∧ w.dialog.isSome = true ∧ asking.app.lifecycle ≠ .stopped ∧
        w.status = .running) ∧
      unread.app.window = none ∧ unread.app.lifecycle = .stopped := by
  intro f5 asking unread
  obtain ⟨_, opened, _⟩ := window_in_step (80, 60) .standard (.ofSource "ask" "input A" true)
    [f5, f5, .event .runStep, .event .runStep]
  obtain ⟨closed, _, unreadable⟩ := window_in_step (80, 60) .standard (.ofSource "ask" "ask for A" true) [f5]
  have shown : (asking.app.window.map (·.dialog.isSome)) = some true := by decide +kernel
  refine ⟨?_, ?_⟩
  · obtain ⟨w, window, dialog⟩ := Option.map_eq_some_iff.mp shown
    obtain ⟨_, _, _, _, running, status⟩ := opened w window
    refine ⟨w, window, dialog, running dialog, status.trans ?_⟩
    decide +kernel
  · have window : unread.app.window = none := by
      cases loaded : Computer.load unread.app.editor.source with
      | error e => exact unreadable e loaded
      | ok computer =>
          have refused : (Computer.load unread.app.editor.source).toOption.isSome = false := by
            decide +kernel
          rw [loaded] at refused
          cases refused
    exact ⟨window, (closed window).1⟩

end PocketBasic.App
