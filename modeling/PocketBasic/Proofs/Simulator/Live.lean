import PocketBasic.Proofs.Simulator.Coherent
import PocketBasic.Proofs.Simulator.StepChain
import PocketBasic.Proofs.Simulator.Timers
import PocketBasic.Proofs.Simulator.Waking

/-! # The scheduler in its window

The lifecycle belongs to the application, the scheduler to the window. They are kept in step by the
transitions, and between two of them no event of the loop and no key changes whether a program runs or is
paused. A step that ends the run breaks what makes a program live; the stop that follows restores it.
-/

namespace PocketBasic

variable {σ : Type}

/-- The scheduler agrees with the loop, with the events that are drained and not handled yet, and with
    the lifecycle. -/
structure Bench.Steady (batch : List SimEvent) (lifecycle : Lifecycle) (b : Bench σ) : Prop where
  chained : b.Chained (batch.count .runStep)
  armed : b.Armed batch
  coherent : b.scheduler.Coherent
  running : b.scheduler.running = decide (lifecycle ≠ .stopped)
  paused : b.scheduler.paused = decide (lifecycle = .paused)

/-- A bench whose flags are the same is steady if the loop and the sleep are in order. -/
theorem Bench.Steady.of_flags {b other : Bench σ} {batch batch' : List SimEvent}
    {lifecycle : Lifecycle} (steady : b.Steady batch lifecycle)
    (chained : other.Chained (batch'.count .runStep)) (armed : other.Armed batch')
    (coherent : other.scheduler.Coherent)
    (running : other.scheduler.running = b.scheduler.running)
    (paused : other.scheduler.paused = b.scheduler.paused) : other.Steady batch' lifecycle :=
  ⟨chained, armed, coherent, running.trans steady.running, paused.trans steady.paused⟩

theorem Bench.Steady.withRig {b : Bench σ} {batch : List SimEvent} {lifecycle : Lifecycle}
    (steady : b.Steady batch lifecycle) (rig : σ) : { b with rig }.Steady batch lifecycle :=
  steady.of_flags (steady.chained.of_same rfl rfl fun _ => .inl) (steady.armed.withRig rig)
    steady.coherent rfl rfl

theorem Bench.flags_wake (b : Bench σ) (generation : Nat) :
    (b.wake generation).scheduler.running = b.scheduler.running ∧
      (b.wake generation).scheduler.paused = b.scheduler.paused := by
  refine b.wake_cases generation ?woken ?held ?stale
  case woken =>
    intros
    rw [scheduler_schedule]
    exact ⟨rfl, rfl⟩
  all_goals
    intros
    exact ⟨rfl, rfl⟩

theorem Bench.flags_keyDown [Device σ] (b : Bench σ) (key : UInt8) :
    (b.keyDown key).scheduler.running = b.scheduler.running ∧
      (b.keyDown key).scheduler.paused = b.scheduler.paused := by
  refine b.keyDown_cases key ?_ ?_
  all_goals
    intros
    simp only [scheduler_schedule, and_self]

theorem Bench.flags_provide [Engine σ] (b : Bench σ) (values : List Answer) :
    (b.provide values).scheduler.running = b.scheduler.running ∧
      (b.provide values).scheduler.paused = b.scheduler.paused := by
  refine b.provide_cases values ?_ ?_
  all_goals
    intros
    simp only [scheduler_schedule, scheduler_releaseAll, and_self]

/-! ## The state of the answer -/

namespace Bench

variable (b : Bench σ)

theorem inputState_pause : b.pause.scheduler.inputState = b.scheduler.inputState := by
  refine b.pause_cases ?_ ?_
  all_goals
    intros
    rfl

theorem inputState_cont : b.cont.scheduler.inputState = b.scheduler.inputState := by
  refine b.cont_cases ?_ ?_
  all_goals
    intros
    simp only [scheduler_schedule]

theorem inputState_wake (generation : Nat) :
    (b.wake generation).scheduler.inputState = b.scheduler.inputState := by
  refine b.wake_cases generation ?_ ?_ ?_
  all_goals
    intros
    simp only [scheduler_schedule]

theorem inputState_keyDown [Device σ] (key : UInt8) :
    (b.keyDown key).scheduler.inputState = b.scheduler.inputState := by
  refine b.keyDown_cases key ?_ ?_
  all_goals
    intros
    simp only [scheduler_schedule]

/-- Answers close the dialog, unless there is none. -/
theorem isPrompting_provide [Engine σ] (values : List Answer) :
    (b.provide values).scheduler.isPrompting = false := by
  refine b.provide_cases values ?accepted ?refused
  case accepted =>
    intro _
    rw [scheduler_schedule]
    rfl
  case refused =>
    intro closed
    exact closed

end Bench

variable [Engine σ] [Device σ]

namespace Bench

/-! ## What a step tells -/

/-- Only transitions change whether a program runs and is paused. -/
theorem flags_step (b : Bench σ) :
    b.step.2.scheduler.running = b.scheduler.running ∧
      b.step.2.scheduler.paused = b.scheduler.paused := by
  refine b.step_cases ?active ?halted
  case halted =>
    intro _
    exact ⟨rfl, rfl⟩
  case active =>
    intro _ _
    refine b.taken.proceed_cases ?done ?more ?sleep ?keyless ?keyed ?asked ?prompting ?answered
      ?failed
    case sleep =>
      intro nanoseconds _
      refine b.taken.sleep_cases nanoseconds ?armed ?fresh
      all_goals
        intros
        exact ⟨rfl, rfl⟩
    all_goals
      intros
      simp only [scheduler_runBatch, scheduler_stopBlink, scheduler_startBlink]
      exact ⟨rfl, rfl⟩

/-- The dialog is open after a step that asks for it, and otherwise as before. -/
theorem isPrompting_step (b : Bench σ) :
    b.step.2.scheduler.isPrompting = (b.step.1.isAsking || b.scheduler.isPrompting) := by
  refine b.step_cases ?active ?halted
  case halted =>
    intro _
    rfl
  case active =>
    intro _ _
    refine b.taken.proceed_cases ?done ?more ?sleep ?keyless ?keyed ?asked ?prompting ?answered
      ?failed
    case sleep =>
      intro nanoseconds _
      refine b.taken.sleep_cases nanoseconds ?armed ?fresh
      all_goals
        intros
        rfl
    case asked =>
      intros
      rfl
    case answered =>
      intro _ values _ ready
      change b.scheduler.inputState = .ready values at ready
      simp only [scheduler_runBatch, scheduler_stopBlink, Scheduler.isPrompting, ready]
      rfl
    all_goals
      intros
      simp only [Scheduler.isPrompting, scheduler_runBatch, scheduler_stopBlink,
        scheduler_startBlink]
      rfl

/-- A step asks for values only if none are asked for or wait already. -/
theorem inputState_of_asking (b : Bench σ) {request : Request} :
    b.step.1 = .awaitingInput request → b.scheduler.inputState = .idle := by
  refine b.step_cases ?active ?halted
  case halted => exact fun _ other => by cases other
  case active =>
    intro _ _
    refine b.taken.proceed_cases ?done ?more ?sleep ?keyless ?keyed ?asked ?prompting ?answered
      ?failed
    case asked => exact fun _ _ idle _ => idle
    all_goals
      intros
      contradiction

/-- Only the step of a program that runs comes to anything. -/
theorem running_of_step (b : Bench σ) : b.step.1 ≠ .idle → b.scheduler.running = true := by
  refine b.step_cases ?active ?halted
  case active =>
    intro running _ _
    exact running
  case halted =>
    intro _ idle
    exact absurd rfl idle

theorem flags_handle (b : Bench σ) (event : SimEvent) :
    (b.handle event).scheduler.running = b.scheduler.running ∧
      (b.handle event).scheduler.paused = b.scheduler.paused := by
  cases event with
  | runStep => exact b.flags_step
  | sleepElapsed generation => exact b.flags_wake generation
  | repaintTick =>
      rw [handle, scheduler_repaintTick]
      exact ⟨rfl, rfl⟩
  | cursorTick =>
      rw [handle, scheduler_blinkTick]
      exact ⟨rfl, rfl⟩
  | keyRelease code => exact ⟨rfl, rfl⟩

variable {b : Bench σ} {batch : List SimEvent} {lifecycle : Lifecycle}

theorem Steady.handle {event : SimEvent} (steady : b.Steady (event :: batch) lifecycle) :
    (b.handle event).Steady batch lifecycle := by
  obtain ⟨running, paused⟩ := b.flags_handle event
  exact steady.of_flags steady.chained.handle steady.armed.handle (steady.coherent.handle event)
    running paused

end Bench

variable [KeyQueue σ]

/-- What is steady, and able to go on. -/
structure Bench.Live (batch : List SimEvent) (lifecycle : Lifecycle) (b : Bench σ) : Prop
    extends Bench.Steady batch lifecycle b where
  awake : b.Awake

namespace Bench

variable {b : Bench σ} {batch : List SimEvent} {lifecycle : Lifecycle}

/-! ## Transitions -/

/-- A start finds whatever the run before has left. -/
theorem Steady.start (steady : b.Steady batch lifecycle) : b.start.Live batch .started := by
  obtain ⟨repaint, blink, restarted⟩ := b.exists_scheduler_restarted
  refine ⟨⟨steady.chained.start, steady.armed.start, .start b, ?_, ?_⟩, .start b⟩
  all_goals
    rw [start_eq, scheduler_schedule, restarted]
    rfl

theorem Steady.stop (steady : b.Steady batch lifecycle) : b.stop.2.Live batch .stopped := by
  obtain ⟨repaint, blink, stopped⟩ := b.exists_scheduler_stop
  refine ⟨⟨steady.chained.stop, steady.armed.stop, .stop b, ?_, ?_⟩, .stop b⟩
  all_goals
    rw [stopped]
    rfl

namespace Live

theorem pause (live : b.Live batch .started) : b.pause.Live batch .paused := by
  have running : b.scheduler.running = true := live.running
  have flags : b.pause.scheduler.running = true ∧ b.pause.scheduler.paused = true := by
    refine b.pause_cases ?paused ?ignored
    case paused =>
      intro _
      exact ⟨running, rfl⟩
    case ignored =>
      intro halted
      rw [running] at halted
      cases halted
  exact ⟨⟨live.chained.pause, live.armed.pause, live.coherent.pause, flags.1, flags.2⟩,
    live.awake.pause⟩

theorem cont (live : b.Live batch .paused) : b.cont.Live batch .started := by
  have running : b.scheduler.running = true := live.running
  have paused : b.scheduler.paused = true := live.paused
  have flags : b.cont.scheduler.running = true ∧ b.cont.scheduler.paused = false := by
    refine b.cont_cases ?continued ?ignored
    case continued =>
      intro _ _
      rw [scheduler_schedule]
      exact ⟨running, rfl⟩
    case ignored =>
      intro other
      rw [running, paused] at other
      cases other
  exact ⟨⟨live.chained.cont, live.armed.cont, live.coherent.cont, flags.1, flags.2⟩,
    live.awake.cont⟩

/-! ## Keys, answers and edits -/

theorem withRig (live : b.Live batch lifecycle) {rig : σ}
    (waiting : KeyQueue.waiting rig = KeyQueue.waiting b.rig) :
    { b with rig }.Live batch lifecycle :=
  ⟨live.toSteady.withRig rig, live.awake.of_same rfl waiting⟩

theorem keyDown (live : b.Live batch lifecycle) (key : UInt8) :
    (b.keyDown key).Live batch lifecycle := by
  obtain ⟨running, paused⟩ := b.flags_keyDown key
  exact ⟨live.of_flags (live.chained.keyDown key) (live.armed.keyDown key)
    (live.coherent.keyDown key) running paused, live.awake.keyDown key⟩

theorem keyUp (live : b.Live batch lifecycle) (key : UInt8) : (b.keyUp key).Live batch lifecycle :=
  live.withRig (KeyQueue.waiting_keyUp b.rig key)

theorem provide (live : b.Live batch lifecycle) (values : List Answer) :
    (b.provide values).Live batch lifecycle := by
  obtain ⟨running, paused⟩ := b.flags_provide values
  exact ⟨live.of_flags (live.chained.provide values) (live.armed.provide values)
    (live.coherent.provide values) running paused, live.awake.provide values⟩

/-! ## The loop -/

theorem singleShot (live : b.Live batch lifecycle) (delay : Nat) {event : SimEvent}
    (other : event ≠ .runStep) :
    { b with loop := (b.loop.singleShot delay event).2 }.Live batch lifecycle := by
  refine ⟨live.of_flags (live.chained.singleShot delay other) (live.armed.singleShot delay event)
    live.coherent rfl rfl, live.awake.of_same rfl rfl⟩

theorem advance (live : b.Live batch lifecycle) (ms : Nat) :
    { b with loop := b.loop.advance ms }.Live batch lifecycle := by
  refine ⟨live.of_flags (live.chained.of_same rfl rfl fun _ => .inl)
    (live.armed.of_same rfl rfl rfl rfl rfl) live.coherent rfl rfl, live.awake.of_same rfl rfl⟩

theorem drain (live : b.Live [] lifecycle) :
    { b with loop := b.loop.drain.2 }.Live b.loop.drain.1 lifecycle := by
  have chained := live.chained.drain
  rw [List.count_nil, Nat.zero_add] at chained
  exact ⟨live.of_flags chained live.armed.drain live.coherent rfl rfl, live.awake.of_same rfl rfl⟩

/-- Handling an event keeps a bench live, unless it is a step that ends the run. -/
theorem handle {event : SimEvent} (live : b.Live (event :: batch) lifecycle)
    (goesOn : event = .runStep → b.step.1.isEnd = false) : (b.handle event).Live batch lifecycle := by
  refine ⟨live.toSteady.handle, ?_⟩
  cases event with
  | runStep => exact .step b (goesOn rfl)
  | sleepElapsed generation => exact live.awake.wake generation
  | repaintTick => exact live.awake.repaintTick
  | cursorTick => exact live.awake.blinkTick
  | keyRelease code => exact live.awake.keyUp code

/-- Once everything that was drained is handled, a step is on the loop or the program waits. -/
theorem goesOn (live : b.Live [] .started) : .runStep ∈ b.loop.posted ∨ b.Waits := by
  cases flag : b.scheduler.stepPosted with
  | true =>
      have balance := live.chained.balance
      rw [flag, List.count_nil, if_pos rfl] at balance
      refine .inl (List.count_pos_iff.mp ?_)
      omega
  | false => exact .inr (live.awake live.running live.paused flag)

end Live

end Bench

end PocketBasic
