import PocketBasic.Proofs.Simulator.Host
import PocketBasic.Proofs.Simulator.Sampling
import PocketBasic.Proofs.Simulator.Window

/-! # The window in step with the lifecycle

The lifecycle, the flags of the scheduler, the timer of the picture, the dialog and the status all say how
far the program is. The transitions change them together. Of the rest, only the end of a run breaks the
agreement, and that comes with a notice; the stop that answers a notice asks for nothing but a lifecycle
that is not stopped already.
-/

namespace PocketBasic

/-- What the title says of a program that has been started. -/
def Lifecycle.status : Lifecycle → RunStatus
  | .stopped => .finished
  | .started => .running
  | .paused => .paused

variable {σ : Type}

/-- The window agrees with the lifecycle; `begun` tells whether its program has ever been started. -/
structure Window.InStep (lifecycle : Lifecycle) (begun : Bool) (w : Window σ) : Prop where
  running : w.scheduler.running = decide (lifecycle ≠ .stopped)
  paused : w.scheduler.paused = decide (lifecycle = .paused)
  sampled : w.scheduler.Sampled
  dialog : w.dialog.isSome = w.scheduler.isPrompting
  shown : w.dialog.isSome = true → lifecycle ≠ .stopped
  status : w.status = if begun then lifecycle.status else .ready
  begun : lifecycle ≠ .stopped → begun = true

namespace Window

variable {w other : Window σ} {loop : EventLoop SimEvent} {lifecycle : Lifecycle} {begun : Bool}

theorem inStep_opened (name : String) (rig : σ) (settings : SimulatorSettings) :
    (opened name rig settings).InStep .stopped false :=
  ⟨rfl, rfl, .fresh settings, rfl, (fun shown => by cases shown), rfl, fun other => absurd rfl other⟩

namespace InStep

theorem closed (inStep : w.InStep .stopped begun) : w.dialog = none := by
  cases dialog : w.dialog with
  | none => rfl
  | some d => exact absurd rfl (inStep.shown (by rw [dialog]; rfl))

/-- Nothing but the scheduler, the dialog and the status counts. -/
theorem of_same (inStep : w.InStep lifecycle begun) (scheduler : other.scheduler = w.scheduler)
    (dialog : other.dialog.isSome = w.dialog.isSome) (status : other.status = w.status) :
    other.InStep lifecycle begun := by
  obtain ⟨running, paused, sampled, prompting, shown, told, first⟩ := inStep
  rw [← scheduler] at running paused sampled prompting
  rw [← dialog] at prompting shown
  rw [← status] at told
  exact ⟨running, paused, sampled, prompting, shown, told, first⟩

theorem alike (inStep : w.InStep lifecycle begun) (same : w.Alike other) :
    other.InStep lifecycle begun :=
  inStep.of_same same.scheduler (congrArg Option.isSome same.dialog) same.status

/-- What the scheduler does between two transitions neither starts nor pauses the program. -/
theorem settle (inStep : w.InStep lifecycle begun) {b : Bench σ}
    (running : b.scheduler.running = w.scheduler.running)
    (paused : b.scheduler.paused = w.scheduler.paused) (sampled : b.scheduler.Sampled)
    (prompting : b.scheduler.isPrompting = w.scheduler.isPrompting) :
    (w.settle b).1.InStep lifecycle begun :=
  ⟨running.trans inStep.running, paused.trans inStep.paused, sampled,
    inStep.dialog.trans prompting.symm, inStep.shown, inStep.status, inStep.begun⟩

variable [Engine σ] [Device σ]

/-! ## Transitions -/

theorem started (w : Window σ) (loop : EventLoop SimEvent) (event : Lifecycle.Event) :
    (w.transition ⟨.stopped, .started, event⟩ loop).1.InStep .started true := by
  obtain ⟨repaint, blink, restarted⟩ := (w.closeDialog.bench loop).exists_scheduler_restarted
  have scheduler : (w.transition ⟨.stopped, .started, event⟩ loop).1.scheduler =
      (w.closeDialog.bench loop).start.scheduler := rfl
  have sampled := Scheduler.Sampled.start (w.closeDialog.bench loop)
  have closed : (w.transition ⟨.stopped, .started, event⟩ loop).1.dialog = none :=
    w.dialog_closeDialog
  rw [← scheduler] at sampled
  rw [Bench.start_eq, Bench.scheduler_schedule, restarted] at scheduler
  refine ⟨?_, ?_, sampled, ?_, ?_, rfl, fun _ => rfl⟩
  · rw [scheduler]
    rfl
  · rw [scheduler]
    rfl
  · rw [closed, scheduler]
    rfl
  · rw [closed]
    exact fun shown => by cases shown

/-- A stop needs nothing of the window that it finds. -/
theorem stopped (w : Window σ) (loop : EventLoop SimEvent) (source : Lifecycle)
    (event : Lifecycle.Event) :
    (w.transition ⟨source, .stopped, event⟩ loop).1.InStep .stopped true := by
  obtain ⟨repaint, blink, quiet⟩ := (w.closeDialog.bench loop).exists_scheduler_stop
  have scheduler := w.scheduler_stopped loop source event
  have closed : (w.transition ⟨source, .stopped, event⟩ loop).1.dialog = none := by
    cases source
    all_goals exact (dialog_copy _ _).trans w.dialog_closeDialog
  have status : (w.transition ⟨source, .stopped, event⟩ loop).1.status = .finished := by
    cases source <;> rfl
  have sampled := Scheduler.Sampled.stop (w.closeDialog.bench loop)
  rw [← scheduler] at sampled
  rw [quiet] at scheduler
  refine ⟨?_, ?_, sampled, ?_, ?_, status, fun _ => rfl⟩
  · rw [scheduler]
    rfl
  · rw [scheduler]
    rfl
  · rw [closed, scheduler]
    rfl
  · rw [closed]
    exact fun shown => by cases shown

theorem pause (inStep : w.InStep .started begun) (event : Lifecycle.Event) :
    (w.transition ⟨.started, .paused, event⟩ loop).1.InStep .paused begun := by
  have running : w.scheduler.running = true := inStep.running
  have first : begun = true := inStep.begun Lifecycle.noConfusion
  have sampled := inStep.sampled.pause (b := w.bench loop)
  have paused : (w.bench loop).pause = { w.bench loop with scheduler.paused := true } :=
    if_pos running
  have scheduler : (w.transition ⟨.started, .paused, event⟩ loop).1.scheduler =
      (w.bench loop).pause.scheduler := rfl
  rw [← scheduler] at sampled
  rw [paused] at scheduler
  subst first
  refine ⟨?_, ?_, sampled, ?_, fun _ => Lifecycle.noConfusion, rfl, fun _ => rfl⟩
  · rw [scheduler]
    exact running
  · rw [scheduler]
    rfl
  · rw [scheduler]
    exact inStep.dialog

theorem cont (inStep : w.InStep .paused begun) (event : Lifecycle.Event) :
    (w.transition ⟨.paused, .started, event⟩ loop).1.InStep .started begun := by
  have running : w.scheduler.running = true := inStep.running
  have first : begun = true := inStep.begun Lifecycle.noConfusion
  have sampled := inStep.sampled.cont (b := w.bench loop)
  have continued : (w.bench loop).cont = { w.bench loop with scheduler.paused := false }.schedule := by
    refine if_pos ?_
    rw [bench, running, inStep.paused]
    rfl
  have scheduler : (w.transition ⟨.paused, .started, event⟩ loop).1.scheduler =
      (w.bench loop).cont.scheduler := rfl
  rw [← scheduler] at sampled
  rw [continued, Bench.scheduler_schedule] at scheduler
  subst first
  refine ⟨?_, ?_, sampled, ?_, fun _ => Lifecycle.noConfusion, rfl, fun _ => rfl⟩
  · rw [scheduler]
    exact running
  · rw [scheduler]
    rfl
  · rw [scheduler]
    exact inStep.dialog

/-! ## Between the transitions -/

/-- The window stays in step, or it gives notice of the end of a run that is under way. -/
def Told (lifecycle : Lifecycle) (begun : Bool) :
    Option Notice × Window σ × EventLoop SimEvent → Prop
  | (none, w, _) => w.InStep lifecycle begun
  | (some _, _, _) => lifecycle ≠ .stopped

theorem step (inStep : w.InStep lifecycle begun) : Told lifecycle begun (w.handle .runStep loop) := by
  obtain ⟨running, paused⟩ := (w.bench loop).flags_step
  have sampled := inStep.sampled.handle (b := w.bench loop) .runStep
  have prompting := (w.bench loop).isPrompting_step
  have busy := (w.bench loop).running_of_step
  have shown (runs : w.scheduler.running = true) : lifecycle ≠ .stopped :=
    of_decide_eq_true (inStep.running.symm.trans runs)
  rw [Bench.handle] at sampled
  simp only [Window.handle]
  cases stepped : (w.bench loop).step with
  | mk result b =>
      rw [stepped] at running paused sampled prompting busy
      cases result with
      | idle | stepped | sleeping | waitingForKey =>
          exact inStep.settle running paused sampled prompting
      | awaitingInput request =>
          exact ⟨running.trans inStep.running, paused.trans inStep.paused, sampled, prompting.symm,
            fun _ => shown (busy StepResult.noConfusion), inStep.status, inStep.begun⟩
      | finished | failed => exact shown (busy StepResult.noConfusion)

theorem handle (inStep : w.InStep lifecycle begun) (event : SimEvent) :
    Told lifecycle begun (w.handle event loop) := by
  cases event with
  | runStep => exact inStep.step
  | sleepElapsed generation =>
      obtain ⟨running, paused⟩ := (w.bench loop).flags_wake generation
      refine inStep.settle running paused (inStep.sampled.wake (b := w.bench loop) generation) ?_
      rw [Scheduler.isPrompting, (w.bench loop).inputState_wake generation]
      rfl
  | repaintTick =>
      exact inStep.of_same ((scheduler_copy _ _).trans (w.bench loop).scheduler_repaintTick)
        (congrArg Option.isSome (dialog_copy _ _)) (status_copy _ _)
  | cursorTick =>
      exact inStep.of_same (w.bench loop).scheduler_blinkTick rfl rfl
  | keyRelease code => exact inStep.of_same rfl rfl rfl

omit [Device σ] in
/-- A dialog is there for a program that runs, so it may ask for a stop. -/
theorem dialogEvent (inStep : w.InStep lifecycle begun) (input : Input) (bounds : CellRect) :
    Told lifecycle begun (w.dialogEvent input bounds loop) := by
  unfold Window.dialogEvent
  cases dialog : w.dialog with
  | none => exact inStep
  | some d =>
      have shown : lifecycle ≠ .stopped := inStep.shown (by rw [dialog]; rfl)
      dsimp only
      split
      · exact inStep.of_same rfl (by rw [dialog]; rfl) rfl
      · rename_i values _ rig _
        let closed : Window σ := { w with dialog := none, rig }
        have idle := (closed.bench loop).isPrompting_provide values
        have sampled := inStep.sampled.provide (b := closed.bench loop) values
        obtain ⟨running, paused⟩ := (closed.bench loop).flags_provide values
        exact ⟨running.trans inStep.running, paused.trans inStep.paused, sampled, idle.symm,
          (fun still => by cases still), inStep.status, inStep.begun⟩
      · exact shown

theorem perform (inStep : w.InStep lifecycle begun) (a : Act) :
    Told lifecycle begun (w.perform loop a) := by
  refine w.perform_cases loop (motive := Told lifecycle begun) a
    ?event ?dialog ?edited ?down ?up ?pasted ?ignored
  case event => exact fun _ event => inStep.handle event
  case dialog => exact fun input bounds _ => inStep.dialogEvent input bounds
  case edited => exact fun input bounds _ => inStep.of_same rfl rfl rfl
  case down =>
    intro _ other code later settled
    obtain ⟨running, paused⟩ := (w.bench loop).flags_keyDown code
    refine (inStep.settle running paused (inStep.sampled.keyDown (b := w.bench loop) code) ?_).alike
      settled
    rw [Scheduler.isPrompting, (w.bench loop).inputState_keyDown code]
    rfl
  case up =>
    intro _ other code later settled
    have lifted : (w.settle ((w.bench loop).keyUp code)).1.InStep lifecycle begun :=
      inStep.of_same rfl rfl rfl
    exact lifted.alike settled
  case pasted => exact fun _ text => inStep.of_same rfl Option.isSome_map rfl
  case ignored => exact fun _ other later same => inStep.alike same

end InStep

end Window

namespace Host

variable [Engine σ] [Device σ] {h : Host σ} {begun : Bool}

/-- The window of the host is in step with its lifecycle. -/
def InStep (begun : Bool) (h : Host σ) : Prop := h.window.InStep h.lifecycle begun

/-- A stop restores whatever the end of a run has broken. -/
theorem inStep_stopped (running : h.lifecycle ≠ .stopped) : (h.raise .stop).InStep true := by
  rw [raise_stop running]
  exact .stopped h.window h.loop h.lifecycle .stop

/-- A start makes a program one that has been started. -/
theorem InStep.raise (inStep : h.InStep begun) (event : Lifecycle.Event) :
    (h.raise event).InStep (begun || decide ((h.raise event).lifecycle ≠ .stopped)) := by
  have first (running : h.lifecycle ≠ .stopped) : begun = true := inStep.begun running
  have window : h.window.InStep h.lifecycle begun := inStep
  refine raise_cases (motive := fun h => h.InStep (begun || decide (h.lifecycle ≠ .stopped))) h event
    ?kept ?started ?paused ?continued ?stopped
  case kept =>
    by_cases stopped : h.lifecycle = .stopped
    · rw [stopped, decide_eq_false (not_not_intro rfl), Bool.or_false]
      exact inStep
    · rw [first stopped, Bool.true_or, ← first stopped]
      exact inStep
  case started =>
    intro _
    have started := Window.InStep.started h.window h.loop event
    rw [← Bool.or_true begun] at started
    exact started
  case paused =>
    intro running
    rw [running] at window first
    cases first Lifecycle.noConfusion
    exact window.pause event
  case continued =>
    intro waiting
    rw [waiting] at window first
    cases first Lifecycle.noConfusion
    exact window.cont event
  case stopped =>
    intro running
    cases first running
    exact .stopped h.window h.loop h.lifecycle event

theorem InStep.touch (inStep : h.InStep begun) (a : Window.Act) : (h.touch a).InStep begun := by
  have told : Window.InStep.Told h.lifecycle begun (h.window.perform h.loop a) :=
    Window.InStep.perform inStep a
  unfold Host.touch
  cases performed : h.window.perform h.loop a with
  | mk notice state =>
      rw [performed] at told
      cases notice with
      | none => exact told
      | some notice =>
          cases inStep.begun told
          exact inStep_stopped (h := { h with window := state.1, loop := state.2 }) told

end Host

end PocketBasic
