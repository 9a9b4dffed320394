import PocketBasic.Proofs.Simulator.Live

/-! # A window that is live

What the window adds to the scheduler is the dialog: it is open exactly while the scheduler waits for
answers. An event either leaves the window live, or the window gives notice that the run has to be
stopped, and only a program that runs can bring it to that.
-/

namespace PocketBasic

namespace Window

variable {σ : Type}

theorem scheduler_closeDialog [Engine σ] (w : Window σ) : w.closeDialog.scheduler = w.scheduler := by
  unfold closeDialog
  split <;> rfl

theorem dialog_closeDialog [Engine σ] (w : Window σ) : w.closeDialog.dialog = none := by
  unfold closeDialog
  split
  · rfl
  · assumption

theorem bench_closeDialog [Engine σ] (w : Window σ) (loop : EventLoop SimEvent) :
    w.closeDialog.bench loop = { w.bench loop with rig := w.closeDialog.rig } := by
  simp only [bench, scheduler_closeDialog]

theorem scheduler_copy [Device σ] (w : Window σ) (area : Option PixelRect) :
    (w.copy area).scheduler = w.scheduler := by
  unfold copy
  split <;> rfl

theorem rig_copy [Device σ] (w : Window σ) (area : Option PixelRect) : (w.copy area).rig = w.rig := by
  unfold copy
  split <;> rfl

theorem dialog_copy [Device σ] (w : Window σ) (area : Option PixelRect) :
    (w.copy area).dialog = w.dialog := by
  unfold copy
  split <;> rfl

theorem status_copy [Device σ] (w : Window σ) (area : Option PixelRect) :
    (w.copy area).status = w.status := by
  unfold copy
  split <;> rfl

theorem scheduler_stopped [Engine σ] [Device σ] (w : Window σ) (loop : EventLoop SimEvent)
    (source : Lifecycle) (event : Lifecycle.Event) :
    (w.transition ⟨source, .stopped, event⟩ loop).1.scheduler =
      (w.closeDialog.bench loop).stop.2.scheduler := by
  cases source <;> exact scheduler_copy _ _

/-- A window does with an event what a round does with it. -/
theorem bench_handle [Engine σ] [Device σ] (w : Window σ) (event : SimEvent)
    (loop : EventLoop SimEvent) :
    (w.handle event loop).2.1.bench (w.handle event loop).2.2 = (w.bench loop).handle event := by
  cases event with
  | runStep =>
      simp only [handle, Bench.handle]
      cases (w.bench loop).step with
      | mk result b =>
          cases result <;> rfl
  | repaintTick =>
      simp only [handle, bench, Bench.handle, scheduler_copy, rig_copy]
      rfl
  | sleepElapsed | cursorTick | keyRelease => rfl

end Window

variable {σ : Type} [Engine σ] [Device σ] [KeyQueue σ]

/-- The scheduler of the window is live, and its dialog is open as the scheduler has it. -/
structure Window.Live (batch : List SimEvent) (lifecycle : Lifecycle) (w : Window σ)
    (loop : EventLoop SimEvent) : Prop where
  bench : (w.bench loop).Live batch lifecycle
  dialog : w.dialog.isSome = w.scheduler.isPrompting
  shown : w.dialog.isSome = true → lifecycle ≠ .stopped

/-- The window is live, or it asks for a stop that can be had. -/
def Window.Handled (batch : List SimEvent) (lifecycle : Lifecycle) :
    Option Notice × Window σ × EventLoop SimEvent → Prop
  | (none, w, loop) => w.Live batch lifecycle loop
  | (some _, w, loop) => (w.bench loop).Steady batch lifecycle ∧ lifecycle ≠ .stopped

namespace Window

variable {w : Window σ} {loop : EventLoop SimEvent} {batch : List SimEvent} {lifecycle : Lifecycle}

/-- A new window is live on a loop on which nothing is left. -/
theorem live_opened (name : String) (rig : σ) (settings : SimulatorSettings)
    (posted : loop.posted = []) (timers : loop.timers = []) :
    (opened name rig settings).Live [] .stopped loop := by
  refine ⟨⟨⟨?_, ?_, .of_idle rfl rfl, rfl, rfl⟩, .of_halted rfl⟩, rfl, fun shown => ?_⟩
  · exact .fresh settings rig posted timers
  · exact .fresh settings rig timers
  · cases shown

/-! ## Transitions -/

/-- Only the scheduler, the rig and the dialog count. -/
theorem Live.of_same {other : Window σ} (live : w.Live batch lifecycle loop)
    (scheduler : other.scheduler = w.scheduler) (rig : other.rig = w.rig)
    (dialog : other.dialog = w.dialog) : other.Live batch lifecycle loop := by
  refine ⟨?_, ?_, ?_⟩
  · rw [Window.bench, scheduler, rig]
    exact live.bench
  · rw [dialog, scheduler]
    exact live.dialog
  · rw [dialog]
    exact live.shown

/-- The window stays live when its scheduler does, and when nobody has touched the dialog. -/
theorem Live.settle {source : Lifecycle} {before : List SimEvent} (live : w.Live before source loop)
    {b : Bench σ} (bench : b.Live batch lifecycle)
    (inputState : b.scheduler.inputState = w.scheduler.inputState)
    (shown : w.dialog.isSome = true → lifecycle ≠ .stopped) :
    (w.settle b).1.Live batch lifecycle (w.settle b).2 := by
  refine ⟨bench, live.dialog.trans ?_, shown⟩
  rw [Scheduler.isPrompting, Scheduler.isPrompting, ← inputState]
  rfl

/-- A window that has closed its dialog is live when the scheduler is and has none open. -/
theorem Live.of_closed (bench : (w.bench loop).Live batch lifecycle) (closed : w.dialog = none)
    (idle : w.scheduler.inputState = .idle) : w.Live batch lifecycle loop := by
  refine ⟨bench, ?_, ?_⟩
  · rw [closed, Scheduler.isPrompting, idle]
    rfl
  · rw [closed]
    intro shown
    cases shown

theorem live_started (steady : (w.bench loop).Steady batch lifecycle) (event : Lifecycle.Event) :
    (w.transition ⟨.stopped, .started, event⟩ loop).1.Live batch .started
      (w.transition ⟨.stopped, .started, event⟩ loop).2 := by
  have closed := steady.withRig w.closeDialog.rig
  rw [← bench_closeDialog] at closed
  obtain ⟨repaint, blink, restarted⟩ := (w.closeDialog.bench loop).exists_scheduler_restarted
  refine .of_closed closed.start w.dialog_closeDialog ?_
  change (w.closeDialog.bench loop).start.scheduler.inputState = .idle
  rw [Bench.start_eq, Bench.scheduler_schedule, restarted]

/-- A stop needs no more than a steady bench, so it is good for a run that has just ended and for one
    whose dialog was cancelled. -/
theorem live_stopped (steady : (w.bench loop).Steady batch lifecycle) (source : Lifecycle)
    (event : Lifecycle.Event) :
    (w.transition ⟨source, .stopped, event⟩ loop).1.Live batch .stopped
      (w.transition ⟨source, .stopped, event⟩ loop).2 := by
  have closed := steady.withRig w.closeDialog.rig
  rw [← bench_closeDialog] at closed
  -- The scheduler is stopped first, and the last picture is copied from the rig that it leaves.
  let b := (w.closeDialog.bench loop).stop.2
  let last := ({ w.closeDialog with scheduler := b.scheduler, rig := b.rig } : Window σ)
  have stopped : (last.bench b.loop).Live batch .stopped := closed.stop
  have copied : (last.copyDirty.bench b.loop).Live batch .stopped := by
    simp only [Window.bench, copyDirty, scheduler_copy, rig_copy]
    exact stopped.withRig (KeyQueue.waiting_takeDirty b.rig)
  have idle : last.copyDirty.scheduler.inputState = .idle := by
    obtain ⟨repaint, blink, same⟩ := (w.closeDialog.bench loop).exists_scheduler_stop
    simp only [copyDirty, scheduler_copy, last, b, same]
  have none_open : last.copyDirty.dialog = none := by
    simp only [copyDirty, dialog_copy]
    exact w.dialog_closeDialog
  have live := Live.of_closed copied none_open idle
  cases source <;> exact live.of_same rfl rfl rfl

theorem live_paused (live : w.Live batch .started loop) (event : Lifecycle.Event) :
    (w.transition ⟨.started, .paused, event⟩ loop).1.Live batch .paused
      (w.transition ⟨.started, .paused, event⟩ loop).2 := by
  have paused := live.settle live.bench.pause (w.bench loop).inputState_pause
    fun _ => Lifecycle.noConfusion
  exact paused.of_same rfl rfl rfl

theorem live_continued (live : w.Live batch .paused loop) (event : Lifecycle.Event) :
    (w.transition ⟨.paused, .started, event⟩ loop).1.Live batch .started
      (w.transition ⟨.paused, .started, event⟩ loop).2 := by
  have continued := live.settle live.bench.cont (w.bench loop).inputState_cont
    fun _ => Lifecycle.noConfusion
  exact continued.of_same rfl rfl rfl

/-! ## Events of the loop -/

/-- A step opens the dialog, or gives notice of the end of the run. -/
theorem Live.step (live : w.Live (.runStep :: batch) lifecycle loop) :
    Handled batch lifecycle (w.handle .runStep loop) := by
  have steady := live.bench.toSteady.handle
  have goesOn := fun still => (live.bench.handle fun _ => still)
  have prompting := (w.bench loop).isPrompting_step
  have shown : (w.bench loop).step.1 ≠ .idle → lifecycle ≠ .stopped := by
    intro busy
    have running := live.bench.running.symm.trans ((w.bench loop).running_of_step busy)
    exact of_decide_eq_true running
  simp only [Bench.handle] at steady goesOn
  simp only [Window.handle]
  cases stepped : (w.bench loop).step with
  | mk result b =>
      rw [stepped] at steady goesOn prompting shown
      cases result with
      | idle | stepped | sleeping | waitingForKey =>
          exact ⟨goesOn rfl, live.dialog.trans prompting.symm, live.shown⟩
      | awaitingInput request =>
          exact ⟨goesOn rfl, prompting.symm, fun _ => shown StepResult.noConfusion⟩
      | finished => exact ⟨steady, shown StepResult.noConfusion⟩
      | failed fault => exact ⟨steady, shown StepResult.noConfusion⟩

theorem Live.handle {event : SimEvent} (live : w.Live (event :: batch) lifecycle loop) :
    Handled batch lifecycle (w.handle event loop) := by
  cases event with
  | runStep => exact live.step
  | sleepElapsed generation =>
      have woken := live.bench.handle SimEvent.noConfusion
      exact live.settle woken ((w.bench loop).inputState_wake generation) live.shown
  | repaintTick =>
      have ticked := live.bench.handle SimEvent.noConfusion
      have same := congrArg Scheduler.inputState (w.bench loop).scheduler_repaintTick
      have settled := live.settle ticked same live.shown
      exact settled.of_same (scheduler_copy _ _) (rig_copy _ _) (dialog_copy _ _)
  | cursorTick =>
      have ticked := live.bench.handle SimEvent.noConfusion
      have same := congrArg Scheduler.inputState (w.bench loop).scheduler_blinkTick
      exact live.settle ticked same live.shown
  | keyRelease code =>
      have released := live.bench.handle SimEvent.noConfusion
      exact live.settle released rfl live.shown

/-! ## Events of the user -/

/-- Editing neither touches the scheduler nor the queue of keys. -/
theorem Live.withRig (live : w.Live batch lifecycle loop) {rig : σ}
    (waiting : KeyQueue.waiting rig = KeyQueue.waiting w.rig) :
    Window.Live batch lifecycle { w with rig } loop :=
  ⟨live.bench.withRig waiting, live.dialog, live.shown⟩

theorem Live.inspectorEvent (live : w.Live batch lifecycle loop) (input : Input)
    (bounds : CellRect) : (w.inspectorEvent input bounds).2.Live batch lifecycle loop := by
  have edited := live.withRig
    (KeyQueue.keeps.inspector w.panel w.rig input (w.layout bounds).panel)
  exact edited.of_same rfl rfl rfl

theorem Live.keyDown (live : w.Live batch lifecycle loop) (key : UInt8) :
    (w.settle ((w.bench loop).keyDown key)).1.Live batch lifecycle
      (w.settle ((w.bench loop).keyDown key)).2 :=
  live.settle (live.bench.keyDown key) ((w.bench loop).inputState_keyDown key) live.shown

theorem Live.keyUp (live : w.Live batch lifecycle loop) (key : UInt8) :
    (w.settle ((w.bench loop).keyUp key)).1.Live batch lifecycle
      (w.settle ((w.bench loop).keyUp key)).2 :=
  live.settle (live.bench.keyUp key) rfl live.shown

theorem Live.pressKey (live : w.Live batch lifecycle loop) (key : UInt8) :
    (w.pressKey key loop).1.Live batch lifecycle (w.pressKey key loop).2 := by
  unfold Window.pressKey
  split
  · have pressed := live.keyDown key
    exact ⟨pressed.bench.singleShot _ SimEvent.noConfusion, pressed.dialog, pressed.shown⟩
  · exact live

theorem Live.keypadEvent (live : w.Live batch lifecycle loop) (input : Input) (bounds : CellRect) :
    (w.keypadEvent input bounds loop).2.1.Live batch lifecycle
      (w.keypadEvent input bounds loop).2.2 := by
  have touched : Window.Live batch lifecycle
      { w with keypad := (w.keypad.handle input (w.layout bounds).keypad).2 } loop :=
    live.of_same rfl rfl rfl
  unfold Window.keypadEvent
  dsimp only
  split
  · split
    · exact touched.keyDown _
    · exact touched
  · exact touched.keyUp _
  · exact touched

theorem Live.mouseEvent (live : w.Live batch lifecycle loop) (input : Input) (bounds : CellRect) :
    (w.mouseEvent input bounds loop).2.1.Live batch lifecycle
      (w.mouseEvent input bounds loop).2.2 := by
  have blurred : w.blurInspector.Live batch lifecycle loop := live.of_same rfl rfl rfl
  unfold Window.mouseEvent
  split
  · rename_i row col
    have edited := live.inspectorEvent (.click row col) bounds
    split
    · cases used : w.inspectorEvent (.click row col) bounds with
      | mk used other =>
          rw [used] at edited
          exact edited
    · exact blurred.keypadEvent _ bounds
  · exact live.keypadEvent input bounds

theorem Live.paste (live : w.Live batch lifecycle loop) (text : List Char) :
    (w.paste text).Live batch lifecycle loop := by
  have same : (w.paste text).dialog.isSome = w.dialog.isSome := Option.isSome_map
  refine ⟨live.bench, same.trans live.dialog, ?_⟩
  rw [same]
  exact live.shown

/-- An open dialog stays open, is answered, or is cancelled with a notice. -/
theorem Live.dialogEvent (live : w.Live batch lifecycle loop) (input : Input) (bounds : CellRect) :
    Handled batch lifecycle (w.dialogEvent input bounds loop) := by
  unfold Window.dialogEvent
  cases dialog : w.dialog with
  | none => exact live
  | some d =>
      have shown : lifecycle ≠ .stopped := live.shown (by rw [dialog]; rfl)
      have prompting : w.scheduler.isPrompting = true := by
        rw [← live.dialog, dialog]
        rfl
      have waiting := KeyQueue.keeps.dialog d w.rig input (dialogRect bounds d)
      dsimp only
      cases handled : d.handle w.rig input (dialogRect bounds d) with
      | mk outcome rest =>
          obtain ⟨d', rig⟩ := rest
          rw [handled] at waiting
          have edited : (({ w with rig } : Window σ).bench loop).Live batch lifecycle :=
            live.bench.withRig waiting
          cases outcome with
          | pending => exact ⟨edited, prompting.symm, fun _ => shown⟩
          | accepted values =>
              have closed := (({ w with rig } : Window σ).bench loop).isPrompting_provide values
              exact ⟨edited.provide values, closed.symm, fun still => by cases still⟩
          | cancelled => exact ⟨edited.toSteady, shown⟩

end Window

end PocketBasic
