import PocketBasic.Proofs.Simulator.AlongWindow
import PocketBasic.Proofs.Simulator.Driven
import PocketBasic.Proofs.Simulator.InStep
import PocketBasic.Proofs.Simulator.LaterHost

/-! # Histories of a host

A host opens a window on a rig and drives it by its loop: it drains, handles what it was given one event after
the other, and in between raises events of the lifecycle and lets the user act. What the window has from its
settings and its rig from the program lasts for the whole history, and every stop leaves the same behind: at
most one step on the loop, and timers that release keys.
-/

namespace PocketBasic

/-! ## What a window has from its settings -/

/-- The sizes of batches and sleeps and the intervals of the tickers. -/
def Scheduler.setup (s : Scheduler) : Nat × Nat × Nat × Nat :=
  (s.batchSize, s.minSleep, s.repaint.interval, s.blink.interval)

@[simp] theorem Ticker.interval_start (t : Ticker) (event : SimEvent) (loop : EventLoop SimEvent) :
    (t.start event loop).1.interval = t.interval := by
  unfold start
  split <;> rfl

@[simp] theorem Ticker.interval_stop (t : Ticker) (loop : EventLoop SimEvent) :
    (t.stop loop).1.interval = t.interval := by
  unfold stop
  split <;> rfl

namespace Bench

variable {σ : Type} (b : Bench σ)

theorem setup_schedule : b.schedule.scheduler.setup = b.scheduler.setup := by
  rw [scheduler_schedule]
  rfl

theorem setup_pause : b.pause.scheduler.setup = b.scheduler.setup := by
  refine b.pause_cases ?_ ?_
  all_goals
    intro _
    rfl

theorem setup_cont : b.cont.scheduler.setup = b.scheduler.setup := by
  refine b.cont_cases ?continued ?ignored
  case continued => exact fun _ _ => setup_schedule { b with scheduler.paused := false }
  case ignored => exact fun _ => rfl

theorem setup_wake (generation : Nat) : (b.wake generation).scheduler.setup = b.scheduler.setup := by
  refine b.wake_cases generation ?woken ?held ?stale
  case woken =>
    exact fun _ _ _ _ => setup_schedule { b with scheduler.sleep := none, scheduler.last := .more }
  all_goals
    intros
    rfl

theorem setup_provide [Engine σ] (values : List Answer) :
    (b.provide values).scheduler.setup = b.scheduler.setup := by
  refine b.provide_cases values ?accepted ?refused
  case accepted => exact fun _ => setup_schedule { b with scheduler.inputState := .ready values }
  case refused => exact fun _ => rfl

variable [Device σ]

theorem setup_keyDown (key : UInt8) : (b.keyDown key).scheduler.setup = b.scheduler.setup := by
  refine b.keyDown_cases key ?resumed ?buffered
  case resumed => exact fun _ _ _ => setup_schedule { b with rig := Device.keyDown b.rig key }
  case buffered => exact fun _ => rfl

variable [Engine σ]

theorem setup_start : b.start.scheduler.setup = b.scheduler.setup := by
  rw [start_eq, setup_schedule]
  simp [Scheduler.setup, restarted]

theorem setup_stop : b.stop.2.scheduler.setup = b.scheduler.setup := by
  simp [Scheduler.setup, stop_eq, quietened]

theorem setup_proceed : b.proceed.2.scheduler.setup = b.scheduler.setup := by
  refine b.proceed_cases ?done ?more ?sleep ?keyless ?keyed ?asked ?prompting ?answered ?failed
  case sleep =>
    intro nanoseconds _
    refine b.sleep_cases nanoseconds ?armed ?fresh
    all_goals
      intro _ _
      rfl
  all_goals
    intros
    simp [Scheduler.setup]

theorem setup_handle (event : SimEvent) : (b.handle event).scheduler.setup = b.scheduler.setup := by
  cases event with
  | runStep =>
      rw [handle]
      refine b.step_cases ?active ?halted
      case active => exact fun _ _ => b.taken.setup_proceed
      case halted => exact fun _ => rfl
  | sleepElapsed generation => exact b.setup_wake generation
  | repaintTick => exact congrArg Scheduler.setup b.scheduler_repaintTick
  | cursorTick => exact congrArg Scheduler.setup b.scheduler_blinkTick
  | keyRelease code => rfl

end Bench

namespace Window

variable {σ : Type} [Engine σ] [Device σ] (w : Window σ) (loop : EventLoop SimEvent)

theorem setup_perform (a : Act) : (w.perform loop a).2.1.scheduler.setup = w.scheduler.setup := by
  cases outside : a.isOutside with
  | true =>
      refine w.bench_perform_cases loop (motive := fun b => b.scheduler.setup = w.scheduler.setup) a outside
        ?edited ?advanced ?down ?pressed ?up ?answered
      case down | pressed => exact fun code => (w.bench loop).setup_keyDown code
      case answered => exact fun rig values => Bench.setup_provide { w.bench loop with rig } values
      all_goals
        intros
        rfl
  | false =>
      cases a with
      | event event =>
          have handled := congrArg (·.scheduler.setup) (w.bench_handle event loop)
          exact handled.trans ((w.bench loop).setup_handle event)
      | drain => rfl
      | _ => cases outside

theorem setup_transition (t : Lifecycle.Transition) :
    (w.transition t loop).1.scheduler.setup = w.scheduler.setup := by
  refine w.bench_transition_cases loop (motive := fun b => b.scheduler.setup = w.scheduler.setup) t
    ?started ?continued ?paused ?stopped
  case started => exact fun rig => Bench.setup_start { w.bench loop with rig }
  case continued => exact (w.bench loop).setup_cont
  case paused => exact (w.bench loop).setup_pause
  case stopped => exact fun rig last => Bench.setup_stop { w.bench loop with rig }

/-- The scale of the display and the time that a key of the host is held. -/
def trim (w : Window σ) : Nat × Nat := (w.display.scale, w.keyRelease)

omit [Device σ] in
theorem trim_closeDialog : w.closeDialog.trim = w.trim := by
  unfold closeDialog
  split <;> rfl

omit [Engine σ] in
theorem trim_copy (area : Option PixelRect) : (w.copy area).trim = w.trim := by
  cases area <;> rfl

omit [Engine σ] in
theorem trim_keypadEvent (input : Input) (bounds : CellRect) :
    (w.keypadEvent input bounds loop).2.1.trim = w.trim := by
  unfold keypadEvent
  dsimp only
  split
  · split <;> rfl
  · rfl
  · rfl

theorem trim_mouseEvent (input : Input) (bounds : CellRect) :
    (w.mouseEvent input bounds loop).2.1.trim = w.trim := by
  cases input with
  | click row col =>
      cases inside : (w.layout bounds).panel.contains row col with
      | true =>
          obtain ⟨panel, clicked⟩ := w.exists_clicked row col bounds
          rw [w.mouseEvent_inside loop inside, clicked]
          rfl
      | false =>
          rw [w.mouseEvent_outside loop inside]
          exact w.blurInspector.trim_keypadEvent loop _ bounds
  | _ => exact w.trim_keypadEvent loop _ bounds

theorem trim_perform (a : Act) : (w.perform loop a).2.1.trim = w.trim := by
  cases a with
  | event event =>
      cases event with
      | runStep =>
          simp only [perform, handle]
          cases (w.bench loop).step.1 <;> rfl
      | repaintTick => exact trim_copy _ _
      | sleepElapsed | cursorTick | keyRelease => rfl
  | dialog input bounds =>
      simp only [perform, dialogEvent]
      split
      · rfl
      · split <;> rfl
  | mouse input bounds => exact w.trim_mouseEvent loop input bounds
  | press code =>
      simp only [perform, pressKey]
      split <;> rfl
  | inspector | paste | toggleInspector | blurInspector | drain | advance => rfl

theorem trim_transition (t : Lifecycle.Transition) : (w.transition t loop).1.trim = w.trim := by
  obtain ⟨source, target, event⟩ := t
  cases target with
  | started =>
      cases source with
      | stopped => exact w.trim_closeDialog
      | started | paused => rfl
  | paused => cases source <;> rfl
  | stopped => cases source <;> exact (trim_copy _ _).trans w.trim_closeDialog

/-! ## What is posted -/

/-- A window that is driven by its loop has at most one step under way. -/
theorem Driven.chained {w : Window σ} {loop : EventLoop SimEvent} {batch : List SimEvent}
    (driven : Driven batch w loop) : (w.bench loop).Chained (batch.count .runStep) := by
  induction driven with
  | opened name rig settings loop posted timers => exact .fresh settings rig posted timers
  | @transition _ w loop t _ ih =>
      have edited (rig : σ) : ({ w.bench loop with rig } : Bench σ).Chained _ :=
        ih.of_same rfl rfl fun _ => .inl
      refine w.bench_transition_cases loop t ?started ?continued ?paused ?stopped
      case started => exact fun rig => (edited rig).start
      case continued => exact ih.cont
      case paused => exact ih.pause
      case stopped => exact fun rig last => (edited rig).stop.of_same rfl rfl fun _ => .inl
  | @act _ w loop a outside _ ih =>
      have edited (rig : σ) : ({ w.bench loop with rig } : Bench σ).Chained _ :=
        ih.of_same rfl rfl fun _ => .inl
      refine w.bench_perform_cases loop a outside ?edited ?advanced ?down ?pressed ?up ?answered
      case edited => exact edited
      case advanced => exact fun ms => ih.of_same rfl rfl fun _ => .inl
      case down => exact fun code => ih.keyDown code
      case pressed => exact fun code => (ih.keyDown code).singleShot _ SimEvent.noConfusion
      case up => exact fun code => ih.keyUp code
      case answered => exact fun rig values => (edited rig).provide values
  | @drain w loop _ ih =>
      have drained := ih.drain
      rw [List.count_nil, Nat.zero_add] at drained
      exact drained
  | @next event batch w loop _ ih =>
      rw [bench_handle]
      exact ih.handle

end Window

/-! ## Histories -/

/-- What a stop leaves of a run, so far as a start can tell. -/
structure Bench.Spent {σ : Type} (settings : SimulatorSettings) (b : Bench σ) : Prop
    extends b.Owned [] where
  step : b.loop.posted = if b.scheduler.stepPosted then [.runStep] else []
  unsampled : b.scheduler.repaint.isActive = false
  setup : b.scheduler.setup = (Scheduler.ofSettings settings).setup

namespace Host

variable {σ : Type} [Engine σ] [Device σ]

/-- What a transition keeps, an event of the lifecycle keeps. -/
@[elab_as_elim]
theorem raise_keeps {motive : Host σ → Prop} (h : Host σ) (event : Lifecycle.Event) (before : motive h)
    (transition : ∀ {h : Host σ} t, motive h → motive (h.moved t)) : motive (h.raise event) :=
  h.raise_cases event before (fun _ => transition _ before) (fun _ => transition _ before)
    (fun _ => transition _ before) fun _ => transition _ before

/-- An act is the window's, and the answer to a notice is a transition like any other. -/
@[elab_as_elim]
theorem touch_keeps {motive : Host σ → Prop} (h : Host σ) (a : Window.Act)
    (performed : motive { h with
      window := (h.window.perform h.loop a).2.1, loop := (h.window.perform h.loop a).2.2 })
    (transition : ∀ {h : Host σ} t, motive h → motive (h.moved t)) : motive (h.touch a) := by
  unfold touch
  dsimp only
  split
  · exact raise_keeps _ .stop performed transition
  · exact performed

/-- What can become of a host that opens a window on a rig. `batch` is what has been drained and is not
    handled yet. -/
inductive Lived (rig : σ) (settings : SimulatorSettings) : List SimEvent → Host σ → Prop where
  | opened (name : String) (loop : EventLoop SimEvent) (posted : loop.posted = [])
      (timers : loop.timers = []) : Lived rig settings [] ⟨.stopped, .opened name rig settings, loop⟩
  | raise {batch : List SimEvent} {h : Host σ} (event : Lifecycle.Event) :
      Lived rig settings batch h → Lived rig settings batch (h.raise event)
  | touch {batch : List SimEvent} {h : Host σ} (a : Window.Act) (outside : a.isOutside = true) :
      Lived rig settings batch h → Lived rig settings batch (h.touch a)
  | drain {h : Host σ} :
      Lived rig settings [] h → Lived rig settings h.loop.drain.1 (h.touch .drain)
  | next {event : SimEvent} {batch : List SimEvent} {h : Host σ} :
      Lived rig settings (event :: batch) h → Lived rig settings batch (h.touch (.event event))

namespace Lived

variable {rig : σ} {settings : SimulatorSettings} {batch : List SimEvent} {h : Host σ}

/-! ### Pumps -/

theorem all (lived : Lived rig settings batch h) :
    Lived rig settings [] (batch.foldl (fun h event => h.touch (.event event)) h) := by
  induction batch generalizing h with
  | nil => exact lived
  | cons event rest ih => exact ih lived.next

theorem pump (lived : Lived rig settings [] h) : Lived rig settings [] h.pump :=
  lived.drain.all

theorem play (lived : Lived rig settings [] h) {script : List Happening}
    (outside : ∀ happening ∈ script, happening.isOutside = true) :
    Lived rig settings [] (h.play script) := by
  induction script generalizing h with
  | nil => exact lived
  | cons happening rest ih =>
      have others := fun happening member => outside happening (List.mem_cons_of_mem _ member)
      cases happening with
      | raise event => exact ih (lived.raise event) others
      | touch a => exact ih (lived.touch a (outside (.touch a) List.mem_cons_self)) others
      | pump => exact ih lived.pump others

/-! ### The window of a history -/

theorem driven (lived : Lived rig settings batch h) : h.window.Driven batch h.loop := by
  induction lived with
  | opened name loop posted timers => exact .opened name rig settings loop posted timers
  | @raise batch h event _ ih =>
      exact raise_keeps (motive := fun h => h.window.Driven batch h.loop) h event ih
        fun t driven => driven.transition t
  | @touch batch h a outside _ ih =>
      exact touch_keeps (motive := fun h => h.window.Driven batch h.loop) h a (ih.act a outside)
        fun t driven => driven.transition t
  | drain _ ih => exact ih.drain
  | @next event batch h _ ih =>
      exact touch_keeps (motive := fun h => h.window.Driven batch h.loop) h (.event event) ih.next
        fun t driven => driven.transition t

/-- The window stays in step with the lifecycle. -/
theorem inStep (lived : Lived rig settings batch h) : ∃ begun, h.InStep begun := by
  induction lived with
  | opened name loop => exact ⟨false, Window.inStep_opened name rig settings⟩
  | raise event _ ih =>
      obtain ⟨_, inStep⟩ := ih
      exact ⟨_, inStep.raise event⟩
  | touch _ _ _ ih | drain _ ih | next _ ih =>
      obtain ⟨_, inStep⟩ := ih
      exact ⟨_, inStep.touch _⟩

/-- What a new window has and every act and every transition keeps, the window has all the time. -/
theorem window {motive : Window σ → Prop} (lived : Lived rig settings batch h)
    (opened : ∀ name, motive (.opened name rig settings))
    (performed : ∀ w loop a, motive w → motive (w.perform loop a).2.1)
    (moved : ∀ w loop t, motive w → motive (w.transition t loop).1) : motive h.window := by
  have transition {h : Host σ} (t : Lifecycle.Transition) (before : motive h.window) :
      motive (h.moved t).window := moved h.window h.loop t before
  induction lived with
  | opened name loop => exact opened name
  | @raise _ h event _ ih =>
      exact raise_keeps (motive := fun h => motive h.window) h event ih transition
  | @touch _ h a _ _ ih =>
      exact touch_keeps (motive := fun h => motive h.window) h a (performed _ _ a ih) transition
  | drain _ ih => exact ih
  | @next event _ h _ ih =>
      exact touch_keeps (motive := fun h => motive h.window) h (.event event) (performed _ _ _ ih) transition

theorem setup (lived : Lived rig settings batch h) :
    h.window.scheduler.setup = (Scheduler.ofSettings settings).setup := by
  refine lived.window (motive := fun w => w.scheduler.setup = (Scheduler.ofSettings settings).setup)
    (fun _ => rfl) ?_ ?_
  · exact fun w loop a same => (w.setup_perform loop a).trans same
  · exact fun w loop t same => (w.setup_transition loop t).trans same

theorem trim (lived : Lived rig settings batch h) :
    h.window.trim = (settings.pixelScale, settings.keyRelease) := by
  refine lived.window (motive := fun w => w.trim = (settings.pixelScale, settings.keyRelease))
    (fun _ => rfl) ?_ ?_
  · exact fun w loop a same => (w.trim_perform loop a).trans same
  · exact fun w loop t same => (w.trim_transition loop t).trans same

theorem along {α : Type} {f : σ → α} {R : α → α → Prop} (lived : Lived rig settings batch h)
    (along : Rig.Along f R) (taken : ∀ rig, R (f rig) (f (Device.takeDirty rig).2)) :
    R (f rig) (f h.window.rig) := by
  refine lived.window (motive := fun w => R (f rig) (f w.rig)) (fun _ => along.refl _) ?_ ?_
  · exact fun w loop a before => along.trans before (along.perform taken w loop a)
  · exact fun w loop t before => along.trans before (along.transition taken w loop t)

/-! ### The end of a history -/

theorem closed (lived : Lived rig settings batch h) (stopped : h.lifecycle = .stopped) :
    h.window.dialog = none := by
  obtain ⟨_, inStep⟩ := lived.inStep
  unfold InStep at inStep
  rw [stopped] at inStep
  exact inStep.closed

theorem spent (lived : Lived rig settings [] h) (stopped : h.lifecycle = .stopped) :
    (h.window.bench h.loop).Spent settings := by
  obtain ⟨_, inStep⟩ := lived.inStep
  have kept := lived.driven.kept
  have balance := lived.driven.chained.balance
  refine ⟨kept.toOwned, ?_, ?_, lived.setup⟩
  · -- Nothing but steps is ever posted, so the posted events are as many as the flag counts.
    have steps := List.eq_replicate_of_mem kept.posted
    rw [List.count_nil, Nat.add_zero, steps, List.count_replicate_self] at balance
    rw [steps, balance]
    split <;> rfl
  · have unsampled : h.window.scheduler.repaint.isActive = decide (h.lifecycle ≠ .stopped) :=
      Eq.trans inStep.sampled inStep.running
    rw [stopped] at unsampled
    exact unsampled

end Lived

end Host

end PocketBasic
