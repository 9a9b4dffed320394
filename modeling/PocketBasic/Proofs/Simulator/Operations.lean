import PocketBasic.Proofs.EventLoop.Operations
import PocketBasic.Simulator.Scheduler

/-! # Operations of the scheduler

What each operation does to the fields of the scheduler, to the rig and to the loop, and a rule of
cases for each operation that looks before it acts. An invariant of the scheduler is proved from these
equations and rules, one short case after the other, and not from the definitions.
-/

namespace PocketBasic

namespace Ticker

variable (t : Ticker) (event : SimEvent) (loop : EventLoop SimEvent)

@[simp] theorem isActive_start : (t.start event loop).1.isActive = true := by
  simp only [start, isActive]
  split
  · rename_i id armed
    simp only [armed, Option.isSome_some]
  · rfl

@[simp] theorem posted_start : (t.start event loop).2.posted = loop.posted := by
  simp only [start]
  split <;> rfl

@[simp] theorem posted_stop : (t.stop loop).2.posted = loop.posted := by
  simp only [stop]
  split <;> rfl

theorem stop_of_inactive {t : Ticker} (idle : t.isActive = false) : t.stop loop = (t, loop) := by
  simp only [isActive, Option.isSome_eq_false_iff, Option.isNone_iff_eq_none] at idle
  simp only [stop, idle]

/-- Arming a ticker arms at most a timer of its own event. -/
theorem mem_timers_start {timer : Timer SimEvent} :
    timer ∈ (t.start event loop).2.timers → timer ∈ loop.timers ∨ timer.event = event := by
  simp only [start]
  split
  · exact .inl
  · intro member
    simp only [EventLoop.timers_startTimer, List.mem_append, List.mem_singleton] at member
    obtain inside | rfl := member
    · exact .inl inside
    · exact .inr rfl

theorem mem_timers_start_of_mem {timer : Timer SimEvent} (member : timer ∈ loop.timers) :
    timer ∈ (t.start event loop).2.timers := by
  simp only [start]
  split
  · exact member
  · exact List.mem_append_left _ member

theorem mem_timers_of_stop {timer : Timer SimEvent} :
    timer ∈ (t.stop loop).2.timers → timer ∈ loop.timers := by
  simp only [stop]
  split
  · exact fun member => (EventLoop.mem_timers_kill loop).mp member |>.1
  · exact id

end Ticker

namespace Bench

variable {σ : Type} (b : Bench σ)

/-! ## Posting a step -/

@[simp] theorem scheduler_schedule :
    b.schedule.scheduler = { b.scheduler with stepPosted := true } := by
  obtain ⟨s, rig, loop⟩ := b
  simp only [schedule]
  split
  · rename_i posted
    cases s
    simp only at posted
    simp only [posted]
  · rfl

@[simp] theorem rig_schedule : b.schedule.rig = b.rig := by
  simp only [schedule]
  split <;> rfl

@[simp] theorem timers_schedule : b.schedule.loop.timers = b.loop.timers := by
  simp only [schedule]
  split <;> rfl

@[simp] theorem nextId_schedule : b.schedule.loop.nextId = b.loop.nextId := by
  simp only [schedule]
  split <;> rfl

/-- A step is posted behind everything else, and only if none is under way. -/
theorem posted_schedule :
    b.schedule.loop.posted =
      b.loop.posted ++ if b.scheduler.stepPosted then [] else [.runStep] := by
  simp only [schedule]
  split <;> simp

/-! ## Timers of the scheduler -/

@[simp] theorem scheduler_cancelSleep :
    b.cancelSleep.scheduler = { b.scheduler with sleep := none } := by
  obtain ⟨s, rig, loop⟩ := b
  simp only [cancelSleep]
  split
  · rfl
  · rename_i awake
    cases s
    simp only at awake
    simp only [awake]

@[simp] theorem rig_cancelSleep : b.cancelSleep.rig = b.rig := by
  simp only [cancelSleep]
  split <;> rfl

@[simp] theorem posted_cancelSleep : b.cancelSleep.loop.posted = b.loop.posted := by
  simp only [cancelSleep]
  split <;> rfl

@[elab_as_elim]
theorem cancelSleep_cases {motive : Bench σ → Prop}
    (cancelled : ∀ id generation, b.scheduler.sleep = some (id, generation) →
      motive { b with scheduler.sleep := none, loop := b.loop.kill id })
    (awake : b.scheduler.sleep = none → motive b) : motive b.cancelSleep := by
  unfold cancelSleep
  split
  · rename_i id generation asleep
    exact cancelled id generation asleep
  · rename_i missing
    exact awake missing

theorem mem_timers_of_cancelSleep {timer : Timer SimEvent} :
    timer ∈ b.cancelSleep.loop.timers → timer ∈ b.loop.timers := by
  refine b.cancelSleep_cases ?cancelled ?awake
  case cancelled =>
    intro id _ _ member
    exact (b.loop.mem_timers_kill.mp member).1
  case awake =>
    intro _ member
    exact member

@[simp] theorem scheduler_startRepaint :
    b.startRepaint.scheduler =
      { b.scheduler with repaint := (b.scheduler.repaint.start .repaintTick b.loop).1 } := rfl

@[simp] theorem rig_startRepaint : b.startRepaint.rig = b.rig := rfl

@[simp] theorem loop_startRepaint :
    b.startRepaint.loop = (b.scheduler.repaint.start .repaintTick b.loop).2 := rfl

@[simp] theorem scheduler_stopRepaint :
    b.stopRepaint.scheduler =
      { b.scheduler with repaint := (b.scheduler.repaint.stop b.loop).1 } := rfl

@[simp] theorem rig_stopRepaint : b.stopRepaint.rig = b.rig := rfl

@[simp] theorem loop_stopRepaint :
    b.stopRepaint.loop = (b.scheduler.repaint.stop b.loop).2 := rfl

@[simp] theorem scheduler_startBlink :
    b.startBlink.scheduler =
      { b.scheduler with blink := (b.scheduler.blink.start .cursorTick b.loop).1 } := rfl

/-- Going to sleep arms one timer that carries the number of the sleep, unless the sleep has one. -/
@[elab_as_elim]
theorem sleep_cases {motive : Bench σ → Prop} (nanoseconds : UInt64)
    (armed : ∀ timer, b.scheduler.sleep = some timer → motive b)
    (fresh : ∀ delay, b.scheduler.sleep = none →
      motive
        { b with
          scheduler.sleep := some (b.loop.nextId, b.scheduler.sleepGeneration + 1)
          scheduler.sleepGeneration := b.scheduler.sleepGeneration + 1
          loop :=
            (b.loop.singleShot delay (.sleepElapsed (b.scheduler.sleepGeneration + 1))).2 }) :
    motive (b.sleep nanoseconds) := by
  unfold sleep
  split
  · rename_i timer asleep
    exact armed timer asleep
  · rename_i awake
    exact fresh _ awake

/-! ## Pausing, continuing and waking -/

@[elab_as_elim]
theorem pause_cases {motive : Bench σ → Prop}
    (paused : b.scheduler.running = true → motive { b with scheduler.paused := true })
    (ignored : b.scheduler.running = false → motive b) : motive b.pause := by
  unfold pause
  split
  · rename_i running
    exact paused running
  · rename_i stopped
    exact ignored (Bool.eq_false_iff.mpr stopped)

@[elab_as_elim]
theorem cont_cases {motive : Bench σ → Prop}
    (continued : b.scheduler.running = true → b.scheduler.paused = true →
      motive { b with scheduler.paused := false }.schedule)
    (ignored : (b.scheduler.running && b.scheduler.paused) = false → motive b) :
    motive b.cont := by
  unfold cont
  split
  · rename_i halted
    obtain ⟨running, paused⟩ := (Bool.and_eq_true _ _).mp halted
    exact continued running paused
  · rename_i other
    exact ignored (Bool.eq_false_iff.mpr other)

/-- Only the timer of the sleep under way ends it, and a paused program stays where it is. -/
@[elab_as_elim]
theorem wake_cases {motive : Bench σ → Prop} (generation : Nat)
    (woken : ∀ id, b.scheduler.sleep = some (id, generation) →
      b.scheduler.running = true → b.scheduler.paused = false →
      motive { b with scheduler.sleep := none, scheduler.last := .more }.schedule)
    (held : ∀ id, b.scheduler.sleep = some (id, generation) →
      (b.scheduler.running && !b.scheduler.paused) = false →
      motive { b with scheduler.sleep := none, scheduler.last := .more })
    (stale : (∀ id, b.scheduler.sleep ≠ some (id, generation)) → motive b) :
    motive (b.wake generation) := by
  unfold wake
  split
  · rename_i id armed asleep
    split
    · rename_i same
      subst same
      dsimp only
      split
      · rename_i active
        simp only [Bool.and_eq_true, Bool.not_eq_true'] at active
        exact woken id asleep active.1 active.2
      · rename_i inactive
        exact held id asleep (Bool.eq_false_iff.mpr inactive)
    · rename_i other
      refine stale fun _ same => other ?_
      rw [asleep] at same
      exact congrArg Prod.snd (Option.some.inj same)
  · rename_i awake
    exact stale fun _ same => by rw [awake] at same; cases same

section Engine

variable [Engine σ]

/-! ## Batches and answers -/

theorem runBatch_eq (resume : Resume) :
    b.runBatch resume =
      { b with
        scheduler.last := (Engine.exec b.rig resume b.scheduler.batchSize).1
        rig := (Engine.exec b.rig resume b.scheduler.batchSize).2 }.schedule := rfl

@[simp] theorem scheduler_runBatch (resume : Resume) :
    (b.runBatch resume).scheduler =
      { b.scheduler with
        last := (Engine.exec b.rig resume b.scheduler.batchSize).1
        stepPosted := true } := by
  simp only [runBatch, scheduler_schedule]

@[simp] theorem rig_runBatch (resume : Resume) :
    (b.runBatch resume).rig = (Engine.exec b.rig resume b.scheduler.batchSize).2 := by
  simp only [runBatch, rig_schedule]

@[simp] theorem scheduler_releaseAll (values : List Answer) :
    (b.releaseAll values).scheduler = b.scheduler := rfl

@[simp] theorem loop_releaseAll (values : List Answer) :
    (b.releaseAll values).loop = b.loop := rfl

@[simp] theorem rig_releaseAll (values : List Answer) :
    (b.releaseAll values).rig = values.foldl Engine.release b.rig := rfl

@[elab_as_elim]
theorem provide_cases {motive : Bench σ → Prop} (values : List Answer)
    (accepted : b.scheduler.inputState = .prompting →
      motive { b with scheduler.inputState := .ready values }.schedule)
    (refused : b.scheduler.isPrompting = false → motive (b.releaseAll values)) :
    motive (b.provide values) := by
  unfold provide
  split
  · rename_i prompting
    refine accepted ?_
    unfold Scheduler.isPrompting at prompting
    split at prompting
    · assumption
    · cases prompting
  · rename_i closed
    exact refused (Bool.eq_false_iff.mpr closed)

end Engine

section Device

variable [Device σ]

/-! ## The caret and the keys -/

@[simp] theorem scheduler_stopBlink :
    b.stopBlink.scheduler =
      { b.scheduler with blink := (b.scheduler.blink.stop b.loop).1 } := by
  simp only [stopBlink]
  split
  · rfl
  · rename_i idle
    rw [Ticker.stop_of_inactive _ (Bool.eq_false_iff.mpr idle)]

@[simp] theorem loop_stopBlink :
    b.stopBlink.loop = (b.scheduler.blink.stop b.loop).2 := by
  simp only [stopBlink]
  split
  · rfl
  · rename_i idle
    rw [Ticker.stop_of_inactive _ (Bool.eq_false_iff.mpr idle)]

/-- The caret leaves the screen only if it may be on it. -/
theorem rig_stopBlink :
    b.stopBlink.rig =
      if b.scheduler.blink.isActive then Device.hideCaret b.rig else b.rig := by
  simp only [stopBlink]
  split <;> rfl

@[elab_as_elim]
theorem keyDown_cases {motive : Bench σ → Prop} (key : UInt8)
    (resumed : b.scheduler.running = true → b.scheduler.paused = false →
      b.scheduler.last = .key → motive { b with rig := Device.keyDown b.rig key }.schedule)
    (buffered : (b.scheduler.running = true → b.scheduler.paused = false →
        b.scheduler.last ≠ .key) →
      motive { b with rig := Device.keyDown b.rig key }) :
    motive (b.keyDown key) := by
  unfold keyDown
  dsimp only
  split
  · rename_i waiting
    simp only [Bool.and_eq_true, Bool.not_eq_true', decide_eq_true_eq] at waiting
    exact resumed waiting.1.1 waiting.1.2 waiting.2
  · rename_i other
    simp only [Bool.and_eq_true, Bool.not_eq_true', decide_eq_true_eq, not_and] at other
    exact buffered fun running paused => other ⟨running, paused⟩

@[simp] theorem scheduler_repaintTick : b.repaintTick.2.scheduler = b.scheduler := by
  simp only [repaintTick]
  split <;> rfl

@[simp] theorem loop_repaintTick : b.repaintTick.2.loop = b.loop := by
  simp only [repaintTick]
  split <;> rfl

theorem rig_repaintTick :
    b.repaintTick.2.rig =
      if b.scheduler.repaint.isActive then (Device.takeDirty b.rig).2 else b.rig := by
  simp only [repaintTick]
  split <;> rfl

@[simp] theorem scheduler_blinkTick : b.blinkTick.scheduler = b.scheduler := by
  simp only [blinkTick]
  split <;> rfl

@[simp] theorem loop_blinkTick : b.blinkTick.loop = b.loop := by
  simp only [blinkTick]
  split <;> rfl

theorem rig_blinkTick :
    b.blinkTick.rig =
      if b.scheduler.blink.isActive && !b.scheduler.paused then Device.blink b.rig else b.rig := by
  simp only [blinkTick]
  split <;> rfl

variable [Engine σ]

/-! ## Starting and stopping -/

/-- The bench of a start just before the first step is posted. -/
def restarted (b : Bench σ) : Bench σ :=
  let b := { b with rig := Engine.reset b.rig }.stopBlink
  let b := { b with rig := Device.restart b.rig }.cancelSleep
  let scheduler :=
    { b.scheduler with last := .more, inputState := .idle, running := true, paused := false }
  { b with scheduler }.startRepaint

theorem start_eq : b.start = b.restarted.schedule := rfl

/-- A start forgets the run before, but not a step that is still under way. -/
theorem exists_scheduler_restarted :
    ∃ repaint blink, b.restarted.scheduler =
      { b.scheduler with
        last := .more, inputState := .idle, running := true, paused := false, sleep := none,
        repaint, blink } := by
  refine ⟨b.restarted.scheduler.repaint, b.restarted.scheduler.blink, ?_⟩
  simp only [restarted, scheduler_startRepaint, scheduler_cancelSleep, scheduler_stopBlink]

theorem rig_restarted :
    b.restarted.rig =
      Device.restart
        (if b.scheduler.blink.isActive then Device.hideCaret (Engine.reset b.rig)
          else Engine.reset b.rig) := by
  simp only [restarted, rig_startRepaint, rig_cancelSleep, rig_stopBlink]

@[simp] theorem posted_restarted : b.restarted.loop.posted = b.loop.posted := by
  simp only [restarted, loop_startRepaint, Ticker.posted_start, posted_cancelSleep,
    loop_stopBlink, Ticker.posted_stop]

theorem mem_timers_of_restarted {timer : Timer SimEvent}
    (member : timer ∈ b.restarted.loop.timers) :
    timer ∈ b.loop.timers ∨ timer.event = .repaintTick := by
  obtain inside | painting := Ticker.mem_timers_start _ _ _ member
  · have before := mem_timers_of_cancelSleep _ inside
    simp only [loop_stopBlink] at before
    exact .inl (Ticker.mem_timers_of_stop _ _ before)
  · exact .inr painting

/-- The bench of a stop just before the engine is asked to stop. -/
def quietened (b : Bench σ) : Bench σ :=
  let b := b.cancelSleep.stopRepaint.stopBlink
  b.releaseAll (match b.scheduler.inputState with
    | .ready values => values
    | _ => [])

/-- The bench of a stop, but for what the engine does when it is asked to stop. -/
def halted (b : Bench σ) : Bench σ :=
  { b.quietened with
    scheduler :=
      { b.quietened.scheduler with
        last := .done, inputState := .idle, running := false, paused := false } }

theorem stop_eq_ite :
    b.stop =
      if b.quietened.scheduler.last = .done then (none, b.halted)
      else ((Engine.stop b.halted.rig).1, { b.halted with rig := (Engine.stop b.halted.rig).2 }) :=
  rfl

theorem stop_eq :
    b.stop.2 =
      { b.quietened with
        scheduler :=
          { b.quietened.scheduler with
            last := .done, inputState := .idle, running := false, paused := false }
        rig :=
          if b.quietened.scheduler.last = .done then b.quietened.rig
          else (Engine.stop b.quietened.rig).2 } := by
  rw [stop_eq_ite]
  split <;> rfl

/-- A stop ends the run, but leaves a step that is under way where it is. -/
theorem exists_scheduler_stop :
    ∃ repaint blink, b.stop.2.scheduler =
      { b.scheduler with
        last := .done, inputState := .idle, running := false, paused := false, sleep := none,
        repaint, blink } := by
  refine ⟨b.stop.2.scheduler.repaint, b.stop.2.scheduler.blink, ?_⟩
  simp only [stop_eq, quietened, scheduler_releaseAll, scheduler_stopBlink,
    scheduler_stopRepaint, scheduler_cancelSleep]

theorem rig_quietened :
    b.quietened.rig =
      (match b.scheduler.inputState with
        | .ready values => values
        | _ => []).foldl Engine.release
        (if b.scheduler.blink.isActive then Device.hideCaret b.rig else b.rig) := by
  simp only [quietened, rig_releaseAll, rig_stopBlink, scheduler_stopBlink, scheduler_stopRepaint,
    scheduler_cancelSleep, rig_stopRepaint, rig_cancelSleep]

@[simp] theorem posted_stop : b.stop.2.loop.posted = b.loop.posted := by
  simp only [stop_eq, quietened, loop_releaseAll, loop_stopBlink, Ticker.posted_stop,
    loop_stopRepaint, posted_cancelSleep]

theorem mem_timers_of_stop {timer : Timer SimEvent}
    (member : timer ∈ b.stop.2.loop.timers) : timer ∈ b.loop.timers := by
  simp only [stop_eq, quietened, loop_releaseAll, loop_stopBlink, loop_stopRepaint] at member
  exact mem_timers_of_cancelSleep _
    (Ticker.mem_timers_of_stop _ _ (Ticker.mem_timers_of_stop _ _ member))

/-! ## One step -/

/-- The bench of a step just after it was taken off the loop. -/
def taken (b : Bench σ) : Bench σ := { b with scheduler.stepPosted := false }

theorem step_eq :
    b.step =
      if b.scheduler.running && !b.scheduler.paused then b.taken.proceed else (.idle, b.taken) :=
  rfl

@[elab_as_elim]
theorem step_cases {motive : StepResult × Bench σ → Prop}
    (active : b.scheduler.running = true → b.scheduler.paused = false → motive b.taken.proceed)
    (halted : (b.scheduler.running && !b.scheduler.paused) = false → motive (.idle, b.taken)) :
    motive b.step := by
  rw [step_eq]
  split
  · rename_i running
    simp only [Bool.and_eq_true, Bool.not_eq_true'] at running
    exact active running.1 running.2
  · rename_i other
    exact halted (Bool.eq_false_iff.mpr other)

/-- Everything a step of an active program can do. -/
@[elab_as_elim]
theorem proceed_cases {motive : StepResult × Bench σ → Prop}
    (done : b.scheduler.last = .done → motive (.finished, b))
    (more : b.scheduler.last = .more → motive (.stepped, b.runBatch .nothing))
    (sleep : ∀ nanoseconds, b.scheduler.last = .sleep nanoseconds →
      motive (.sleeping, b.sleep nanoseconds))
    (keyless : ∀ rig, b.scheduler.last = .key → Device.takeKey b.rig = (none, rig) →
      motive (.waitingForKey, { b with rig }.startBlink))
    (keyed : ∀ key rig, b.scheduler.last = .key → Device.takeKey b.rig = (some key, rig) →
      motive (.stepped, { b with rig }.stopBlink.runBatch (.key key)))
    (asked : ∀ request, b.scheduler.last = .input request → b.scheduler.inputState = .idle →
      motive (.awaitingInput request, { b.startBlink with scheduler.inputState := .prompting }))
    (prompting : ∀ request, b.scheduler.last = .input request →
      b.scheduler.inputState = .prompting → motive (.idle, b))
    (answered : ∀ request values, b.scheduler.last = .input request →
      b.scheduler.inputState = .ready values →
      motive
        (.stepped,
          { b with scheduler.inputState := .idle }.stopBlink.runBatch (.answers values)))
    (failed : ∀ fault, b.scheduler.last = .failed fault →
      motive (.failed fault, { b with scheduler.last := .done })) :
    motive b.proceed := by
  unfold proceed
  cases ended : b.scheduler.last with
  | done => exact done ended
  | more => exact more ended
  | sleep nanoseconds => exact sleep nanoseconds ended
  | key =>
      cases taken : Device.takeKey b.rig with
      | mk key rig =>
          cases key with
          | none => exact keyless rig ended taken
          | some key => exact keyed key rig ended taken
  | input request =>
      cases state : b.scheduler.inputState with
      | idle => exact asked request ended state
      | prompting => exact prompting request ended state
      | ready values => exact answered request values ended state
  | failed fault => exact failed fault ended

end Device

end Bench

end PocketBasic
