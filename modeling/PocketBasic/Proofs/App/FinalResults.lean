import PocketBasic.Proofs.App.Annotation
import PocketBasic.Proofs.Simulator.Chronicle

/-! # The last result of a run

A run ends with the batch that says so. What it said is looked at once: an end stops the program, a fault is
annotated in the pane and stops the program. What the user does in the meantime can only come before that,
and then the run is stopped like any other. The journal is kept for all the engines of an application, one
after the other, as their windows are opened and closed.
-/

namespace PocketBasic

/-- An application and the journal of its engines. -/
structure Watched where
  app : App
  calls : List Call

/-- Without a window, the next thing to happen to an application opens one or does not. -/
theorem App.window_of_closed {a : App} (closed : a.window = none) (stopped : a.lifecycle = .stopped)
    (happening : Happening) :
    (a.happen happening).window = none ∨
      ∃ computer, (a.happen happening).window = some (.opened a.editor.name computer a.settings) := by
  cases happening with
  | input file input =>
      have turn := turn_handle (fun _ => stopped) file input
      generalize a.inputDeed input = deed at turn
      cases turn with
      | kept _ window => exact .inl (window.trans closed)
      | hosted shown | closed shown => cases closed.symm.trans shown
      | opened _ _ took => exact .inr ⟨_, took.window⟩
  | paste text =>
      refine .inl ?_
      rw [happen, closed]
      rfl
  | event event =>
      refine .inl ?_
      rw [happen, handleSim, closed]
      exact closed
  | drain | advance | draw | flush => exact .inl closed
  | fit size =>
      rw [happen, fit]
      split <;> exact .inl closed

/-- The host that the application is to its window, with the journal in its rig. -/
def App.journaling (a : App) (w : Window Computer) (calls : List Call) : Host (Journal Computer) :=
  (a.hosting w).map fun rig => ⟨rig, calls⟩

namespace Watched

/-- What a deed adds to the journal. -/
def callsAfter (s : Watched) (w : Window Computer) : App.Deed → List Call
  | .act act => ((s.app.journaling w s.calls).record act).window.rig.calls
  | .close => ((s.app.journaling w s.calls).raise .stop).window.rig.calls
  | .launch _ | .nothing => s.calls

def next (s : Watched) (happening : App.Happening) : Watched where
  app := s.app.happen happening
  calls :=
    match s.app.window with
    | some w => s.callsAfter w (s.app.deed happening)
    | none => s.calls

/-- The window, if there is one, goes by a journal of so many runs; without one no run is under way. -/
def GoesBy (runs : Nat) (calls : List Call) : Option (Window Computer) → Prop
  | some w => w.scheduler.Tells runs calls
  | none => calls.count .reset = runs ∧ Call.Orderly calls ∧ Call.Over calls.head?

theorem GoesBy.counted {runs : Nat} {calls : List Call} {window : Option (Window Computer)}
    (goes : GoesBy runs calls window) : calls.count .reset = runs := by
  cases window with
  | none => exact goes.1
  | some w => exact Scheduler.Tells.counted goes

theorem GoesBy.orderly {runs : Nat} {calls : List Call} {window : Option (Window Computer)}
    (goes : GoesBy runs calls window) : Call.Orderly calls := by
  cases window with
  | none => exact goes.2.1
  | some w => exact Scheduler.Tells.orderly goes

/-- What holds of an application and its journal at any time. -/
structure Sound (begun : Bool) (s : Watched) : Prop where
  inStep : s.app.InStep begun
  legible : s.app.Legible
  goes : GoesBy (s.calls.count .reset) s.calls s.app.window

variable {s : Watched} {w : Window Computer} {begun : Bool}

/-- The window after a deed is that of the host that keeps the journal. -/
theorem took_record (act : Host.Act) :
    ((s.app.journaling w s.calls).record act).map Journal.rig = (s.app.hosting w).act act :=
  Host.map_record _ act

namespace Sound

theorem opened (size : Nat × Nat) (settings : SimulatorSettings) (editor : Editor) :
    Sound false ⟨.opened size settings editor, []⟩ :=
  ⟨.opened size settings editor, nofun, rfl, trivial, .none⟩

theorem tells (sound : s.Sound begun) (shown : s.app.window = some w) :
    (s.app.journaling w s.calls).Tells (s.calls.count .reset) := by
  have goes := sound.goes
  rw [shown] at goes
  exact goes

theorem hosted (sound : s.Sound begun) (shown : s.app.window = some w) :
    (s.app.journaling w s.calls).InStep begun := by
  obtain ⟨running, paused, sampled, dialog, visible, status, first⟩ := sound.inStep.shown w shown
  exact ⟨running, paused, sampled, dialog, visible, status, first⟩

/-- A program that runs or is paused has a window. -/
theorem exists_window (sound : s.Sound begun) (running : s.app.lifecycle ≠ .stopped) :
    ∃ w, s.app.window = some w := by
  cases shown : s.app.window with
  | some w => exact ⟨w, rfl⟩
  | none => exact absurd (sound.inStep.idle shown) running

/-- What happens next goes by the journal too, which has one more run only where the program is started. -/
theorem goes_next (sound : s.Sound begun) (happening : App.Happening) :
    ∃ runs, GoesBy runs (s.next happening).calls (s.next happening).app.window ∧
      (runs = s.calls.count .reset ∨
        s.app.lifecycle = .stopped ∧ (s.next happening).app.lifecycle = .started) := by
  unfold Watched.next
  cases shown : s.app.window with
  | some w =>
      have turn := App.turn_happen shown happening
      generalize s.app.deed happening = deed at turn
      cases turn with
      | kept _ window =>
          refine ⟨_, ?_, .inl rfl⟩
          dsimp only [callsAfter]
          rw [window]
          exact sound.goes
      | @hosted _ _ act before took =>
          cases shown.symm.trans before
          dsimp only [callsAfter]
          rw [took.window, took.lifecycle, ← took_record]
          cases (sound.tells shown).record (sound.hosted shown) act with
          | same tells => exact ⟨_, tells, .inl rfl⟩
          | started before after tells => exact ⟨_, tells, .inr ⟨before, after⟩⟩
      | opened closed => cases shown.symm.trans closed
      | closed _ _ window =>
          refine ⟨_, ?_, .inl rfl⟩
          dsimp only [callsAfter]
          rw [window]
          have stopped := (sound.tells shown).raise_stop
          exact ⟨stopped.counted, stopped.orderly, (sound.tells shown).run_over (sound.hosted shown)⟩
  | none =>
      have goes := sound.goes
      rw [shown] at goes
      refine ⟨_, ?_, .inl rfl⟩
      dsimp only
      obtain closed | ⟨computer, opened⟩ :=
        App.window_of_closed shown (sound.inStep.idle shown) happening
      · rw [closed]
        exact goes
      · rw [opened]
        exact ⟨rfl, goes.2.1, .of_idle rfl rfl, nofun, fun _ => ⟨rfl, goes.2.2⟩⟩

theorem next (sound : s.Sound begun) (happening : App.Happening) :
    ∃ begun, (s.next happening).Sound begun := by
  obtain ⟨runs, goes, _⟩ := sound.goes_next happening
  refine ⟨_, App.InStep.next (s := ⟨s.app, begun⟩) sound.inStep happening,
    sound.legible.happen happening, ?_⟩
  rw [goes.counted]
  exact goes

theorem run (sound : s.Sound begun) (happenings : List App.Happening) :
    ∃ begun, (happenings.foldl Watched.next s).Sound begun := by
  induction happenings generalizing s begun with
  | nil => exact ⟨begun, sound⟩
  | cons happening rest ih =>
      obtain ⟨_, still⟩ := sound.next happening
      exact ih still

end Sound

/-- What a run has ended with is final, and a fault is shown once. -/
structure Final (s : Watched) : Prop where
  /-- After a batch that ended its run, a stop or a report, the next batch belongs to another run. -/
  exec_once : ∀ newer between older resume outcome ending,
    s.calls = newer ++ .exec resume outcome :: (between ++ ending :: older) → Call.Ends ending →
      .reset ∈ between
  /-- After the end of the program, a report or a stop, nothing else is asked for that run: no second report,
      and no stop. -/
  closed : ∀ newer call between older ending,
    s.calls = newer ++ call :: (between ++ ending :: older) → Call.Closes ending → call ≠ .reset →
      .reset ∈ between
  /-- A run begins only where the program is started. -/
  restarted : ∀ happening, (s.next happening).calls.count .reset ≠ s.calls.count .reset →
    s.app.lifecycle = .stopped ∧ (s.next happening).app.lifecycle = .started
  /-- A report is about the fault of the batch right before it. -/
  report_of_failure : ∀ newer older fault, s.calls = newer ++ .report fault :: older →
    ∃ resume before, older = .exec resume (.failed fault) :: before
  /-- The step after a fault annotates it and stops the program, but not the engine. -/
  reported : ∀ resume fault older, s.calls = .exec resume (.failed fault) :: older →
    s.app.lifecycle = .started →
      (s.next (.event .runStep)).calls = .report fault :: s.calls ∧
        (s.next (.event .runStep)).app.lifecycle = .stopped ∧
        App.Annotated ⟨fault.span, fault.message⟩ (s.next (.event .runStep)).app
  /-- While the program is paused that step is put off. -/
  deferred : s.app.lifecycle = .paused →
    (s.next (.event .runStep)).calls = s.calls ∧
      (s.next (.event .runStep)).app.lifecycle = .paused
  /-- Nothing but that step annotates a pane next to a window. -/
  annotated : ∀ happening mark, (s.next happening).app.window.isSome = true →
    (s.next happening).app.editor.mark = some mark → s.app.editor.mark ≠ some mark →
      ∃ resume fault older, s.calls = .exec resume (.failed fault) :: older ∧
        (s.next happening).calls = .report fault :: s.calls ∧ mark = ⟨fault.span, fault.message⟩
  /-- An annotation stays until the program is started or continued, its text is read again, or something
      else is annotated. -/
  lasting : ∀ mark happenings, App.Annotated mark s.app →
    App.Annotated mark (happenings.foldl next s).app ∨
      ∃ before happening after, happenings = before ++ happening :: after ∧
        App.Annotated mark (before.foldl next s).app ∧
        App.Unmarks mark (before.foldl next s).app happening

theorem app_run (s : Watched) (happenings : List App.Happening) :
    (happenings.foldl next s).app = happenings.foldl App.happen s.app := by
  induction happenings generalizing s with
  | nil => rfl
  | cons happening rest ih => exact ih (s.next happening)

namespace Sound

/-- The flags of the scheduler are those of the lifecycle. -/
theorem started (sound : s.Sound begun) (shown : s.app.window = some w)
    (started : s.app.lifecycle = .started) :
    w.scheduler.running = true ∧ w.scheduler.paused = false := by
  have running : w.scheduler.running = decide (s.app.lifecycle ≠ .stopped) :=
    (sound.hosted shown).running
  have paused : w.scheduler.paused = decide (s.app.lifecycle = .paused) := (sound.hosted shown).paused
  rw [started] at running paused
  exact ⟨running, paused⟩

/-- A step that is handled is entered as the host enters it. -/
theorem next_step (shown : s.app.window = some w) :
    (s.next (.event .runStep)).calls =
        ((s.app.journaling w s.calls).watch (.event .runStep)).window.rig.calls ∧
      (s.next (.event .runStep)).app.lifecycle =
        ((s.app.journaling w s.calls).watch (.event .runStep)).lifecycle := by
  refine ⟨?_, ?_⟩
  · unfold Watched.next
    rw [shown]
    rfl
  · have turn := App.turn_happen shown (.event .runStep)
    cases turn with
    | hosted before took =>
        cases shown.symm.trans before
        have followed := took.lifecycle
        rw [← took_record] at followed
        exact followed

/-- The step that reports a fault annotates it. -/
theorem annotates (sound : s.Sound begun) {fault : RunFault} (shown : s.app.window = some w)
    (told : (w.handle .runStep s.app.loop).1 = some (.failed fault)) :
    App.Annotated ⟨fault.span, fault.message⟩ (s.next (.event .runStep)).app := by
  change App.Annotated _ (s.app.handleSim .runStep)
  obtain ⟨mark, failed⟩ := App.mark_notice (s.app.settle (w.handle .runStep s.app.loop).2) fault
  have legible : s.app.editor.compileFailed = false := sound.legible (by rw [shown]; rfl)
  unfold App.handleSim
  rw [shown]
  dsimp only
  rw [told]
  exact ⟨mark, failed.trans legible⟩

theorem final (sound : s.Sound begun) : s.Final where
  exec_once newer between older resume outcome ending calls ends := by
    have orderly := sound.goes.orderly
    rw [calls] at orderly
    exact orderly.of_append.exec_after_end ends
  closed newer call between older ending calls closes other := by
    have orderly := sound.goes.orderly
    rw [calls] at orderly
    exact orderly.of_append.reset_after_close closes other
  restarted happening more := by
    obtain ⟨runs, goes, same | started⟩ := sound.goes_next happening
    · exact absurd (goes.counted.trans same) more
    · exact started
  report_of_failure newer older fault calls := by
    have orderly := sound.goes.orderly
    rw [calls] at orderly
    exact orderly.of_append.report_after_failure
  reported resume fault older calls started := by
    obtain ⟨w, shown⟩ := sound.exists_window (by rw [started]; exact Lifecycle.noConfusion)
    obtain ⟨running, active⟩ := sound.started shown started
    have stands : Call.Stands s.calls.head? w.scheduler.last := (sound.tells shown).going running
    rw [calls] at stands
    have last := stands.last_of_failed
    obtain ⟨entered, stopped⟩ :=
      Host.calls_of_failed (h := s.app.journaling w s.calls) running active last
    obtain ⟨journal, lifecycle⟩ := next_step (s := s) shown
    have told : (w.handle .runStep s.app.loop).1 = some (.failed fault) := by
      rw [w.handle_failed s.app.loop running active last]
    exact ⟨journal.trans entered, lifecycle.trans stopped, sound.annotates shown told⟩
  deferred paused := by
    obtain ⟨w, shown⟩ := sound.exists_window (by rw [paused]; exact Lifecycle.noConfusion)
    have held : w.scheduler.paused = decide (s.app.lifecycle = .paused) := (sound.hosted shown).paused
    rw [paused] at held
    obtain ⟨entered, same⟩ := Host.calls_of_paused (h := s.app.journaling w s.calls) held
    obtain ⟨journal, lifecycle⟩ := next_step (s := s) shown
    exact ⟨journal.trans entered, (lifecycle.trans same).trans paused⟩
  annotated happening mark still shown fresh := by
    obtain ⟨event, w, fault, rfl, before, told, same⟩ := App.reported_of_mark still shown fresh
    obtain ⟨rfl, running, active, last⟩ := Window.failed_of_handle told
    have stands : Call.Stands s.calls.head? w.scheduler.last := (sound.tells before).going running
    rw [last] at stands
    obtain ⟨resume, newest⟩ := stands.failed
    obtain ⟨older, calls⟩ := List.head?_eq_some_iff.mp newest
    obtain ⟨entered, _⟩ :=
      Host.calls_of_failed (h := s.app.journaling w s.calls) running active last
    exact ⟨resume, fault, older, calls, (next_step before).1.trans entered, same⟩
  lasting mark happenings annotated := by
    simp only [app_run]
    exact App.Annotated.stays annotated happenings

end Sound

/-- Whatever happens to an application: a batch that has ended a run is the last one of it, a fault is
    annotated by the step after it unless the user stops the program first, it is reported once, and an
    engine whose run has ended by itself is not stopped. The annotation stays until something replaces it. -/
theorem terminal_results_are_final (size : Nat × Nat) (settings : SimulatorSettings) (editor : Editor)
    (happenings : List App.Happening) :
    let s := happenings.foldl next ⟨.opened size settings editor, []⟩
    s.app = happenings.foldl App.happen (.opened size settings editor) ∧ s.Final := by
  intro s
  obtain ⟨begun, sound⟩ := (Sound.opened size settings editor).run happenings
  exact ⟨app_run _ _, sound.final⟩

/-- A program that fails at once: the step after its batch reports the fault, and a stop by the user comes
    too late for the engine. -/
theorem terminal_results_are_final_faulted :
    let f5 : App.Happening := .input none (.function 5)
    let fault : RunFault := ⟨⟨0, 0, 18⟩, "out of paper"⟩
    let s := [f5, f5, .event .runStep].foldl next
      ⟨.opened (80, 60) .standard (.ofSource "jam" "error out of paper" true), []⟩
    let shown := s.next (.event .runStep)
    s.calls = [.exec .nothing (.failed fault), .reset] ∧ shown.calls = .report fault :: s.calls ∧
      shown.app.lifecycle = .stopped ∧ App.Annotated ⟨fault.span, fault.message⟩ shown.app ∧
      (shown.next (.input none (.function 7))).calls = shown.calls := by
  intro f5 fault s shown
  have final : s.Final := (terminal_results_are_final (80, 60) .standard
    (.ofSource "jam" "error out of paper" true) [f5, f5, .event .runStep]).2
  have calls : s.calls = [.exec .nothing (.failed fault), .reset] := by decide +kernel
  have started : s.app.lifecycle = .started := by decide +kernel
  obtain ⟨reported, stopped, annotated⟩ := final.reported .nothing fault [.reset] calls started
  have late : (shown.next (.input none (.function 7))).calls =
      [.report fault, .exec .nothing (.failed fault), .reset] := by decide +kernel
  refine ⟨calls, reported, stopped, annotated, late.trans ?_⟩
  rw [show shown.calls = _ from reported, calls]

end Watched

end PocketBasic
