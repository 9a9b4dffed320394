import PocketBasic.Proofs.Simulator.Coherent

/-! # Stages of a run

Four things decide how a run goes on: whether it runs at all, how its last batch ended, how far the
answer to a request is, and the rig. Pauses, timers and posted steps only decide when. A stage is these
four, and every move of a round takes it through one of a few steps, so what holds of a run whatever its
timing is proved from the steps and not from the operations.
-/

namespace PocketBasic

variable {σ : Type}

/-- What decides how a run goes on. -/
structure Stage (σ : Type) where
  running : Bool
  last : Outcome
  inputState : InputState
  rig : σ

/-- The list of answers that waits for the next batch. -/
def InputState.held : InputState → List (List Answer)
  | .ready values => [values]
  | _ => []

namespace Bench

variable (b : Bench σ)

def stage : Stage σ :=
  ⟨b.scheduler.running, b.scheduler.last, b.scheduler.inputState, b.rig⟩

@[simp] theorem stage_schedule : b.schedule.stage = b.stage := by
  simp only [stage, scheduler_schedule, rig_schedule]

theorem stage_pause : b.pause.stage = b.stage := by
  refine b.pause_cases ?paused ?ignored
  case paused =>
    intro _
    rfl
  case ignored =>
    intro _
    rfl

theorem stage_cont : b.cont.stage = b.stage := by
  refine b.cont_cases ?continued ?ignored
  case continued =>
    intro _ _
    exact stage_schedule _
  case ignored =>
    intro _
    rfl

theorem stage_sleep (nanoseconds : UInt64) : (b.sleep nanoseconds).stage = b.stage := by
  refine b.sleep_cases nanoseconds ?armed ?fresh
  case armed =>
    intro _ _
    rfl
  case fresh =>
    intro _ _
    rfl

end Bench

/-- The keys that a move presses. -/
def Move.keys : Move → List UInt8
  | .press key => [key]
  | _ => []

/-- The answers that a move gets accepted. -/
def Round.accepts (r : Round σ) : Move → List (List Answer)
  | .provide values => if r.bench.scheduler.isPrompting then [values] else []
  | _ => []

variable [Engine σ]

/-- The stage after a batch. -/
def Stage.ran (s : Stage σ) (rig : σ) (resume : Resume) (budget : Nat) : Stage σ :=
  { s with
    last := (Engine.exec rig resume budget).1
    inputState := .idle
    rig := (Engine.exec rig resume budget).2 }

theorem Bench.stage_runBatch (b : Bench σ) (idle : b.scheduler.inputState = .idle) (resume : Resume) :
    (b.runBatch resume).stage = b.stage.ran b.rig resume b.scheduler.batchSize := by
  simp only [stage, scheduler_runBatch, rig_runBatch, Stage.ran, idle]

variable [Device σ]

/-- What is done to a rig beside the run of its program: nothing is executed, and no key goes in or
    out. -/
inductive Aside : σ → σ → Prop where
  | refl (rig : σ) : Aside rig rig
  | trans {first second third : σ} : Aside first second → Aside second third → Aside first third
  | keyUp (rig : σ) (key : UInt8) : Aside rig (Device.keyUp rig key)
  | blink (rig : σ) : Aside rig (Device.blink rig)
  | hideCaret (rig : σ) : Aside rig (Device.hideCaret rig)
  | takeDirty (rig : σ) : Aside rig (Device.takeDirty rig).2
  /-- The queue is empty. -/
  | missed {rig other : σ} : Device.takeKey rig = (none, other) → Aside rig other
  | release (rig : σ) (value : Answer) : Aside rig (Engine.release rig value)
  | stop (rig : σ) : Aside rig (Engine.stop rig).2

theorem Aside.releaseAll (rig : σ) (values : List Answer) :
    Aside rig (values.foldl Engine.release rig) := by
  induction values generalizing rig with
  | nil => exact .refl rig
  | cons value rest ih => exact .trans (.release rig value) (ih _)

/-- An observation that none of these operations changes is the same after all of them. -/
theorem Aside.kept {α : Type} {f : σ → α} {rig other : σ} (aside : Aside rig other)
    (keyUp : ∀ rig key, f (Device.keyUp rig key) = f rig)
    (blink : ∀ rig, f (Device.blink rig) = f rig)
    (hideCaret : ∀ rig, f (Device.hideCaret rig) = f rig)
    (takeDirty : ∀ rig, f (Device.takeDirty rig).2 = f rig)
    (missed : ∀ rig other, Device.takeKey rig = (none, other) → f other = f rig)
    (release : ∀ rig value, f (Engine.release rig value) = f rig)
    (stop : ∀ rig, f (Engine.stop rig).2 = f rig) : f other = f rig := by
  induction aside with
  | refl rig => rfl
  | trans _ _ first second => rw [second, first]
  | keyUp rig key => exact keyUp rig key
  | blink rig => exact blink rig
  | hideCaret rig => exact hideCaret rig
  | takeDirty rig => exact takeDirty rig
  | missed empty => exact missed _ _ empty
  | release rig value => exact release rig value
  | stop rig => exact stop rig

namespace Stage

/-- What the next batch is resumed with, and the rig once that was taken from it. -/
inductive Due : Stage σ → Resume → σ → Prop where
  | more {s : Stage σ} (last : s.last = .more) : Due s .nothing s.rig
  | key {s : Stage σ} {key : UInt8} {rig : σ} (last : s.last = .key)
      (taken : Device.takeKey s.rig = (some key, rig)) : Due s (.key key) rig
  | answers {s : Stage σ} {request : Request} {values : List Answer} (last : s.last = .input request)
      (ready : s.inputState = .ready values) : Due s (.answers values) s.rig

/-- What a move can do to a stage, and the keys and answers that it brings with it. -/
inductive Step : List UInt8 → List (List Answer) → Stage σ → Stage σ → Prop where
  | aside {s : Stage σ} {rig : σ} (aside : Aside s.rig rig) : Step [] [] s { s with rig }
  | pressed (s : Stage σ) (key : UInt8) : Step [key] [] s { s with rig := Device.keyDown s.rig key }
  | woken {s : Stage σ} {nanoseconds : UInt64} (last : s.last = .sleep nanoseconds) :
      Step [] [] s { s with last := .more }
  | asked {s : Stage σ} {request : Request} (running : s.running = true)
      (last : s.last = .input request) (idle : s.inputState = .idle) :
      Step [] [] s { s with inputState := .prompting }
  | answered {s : Stage σ} (values : List Answer) (prompting : s.inputState = .prompting) :
      Step [] [values] s { s with inputState := .ready values }
  | ran {s : Stage σ} {resume : Resume} {rig other : σ} (budget : Nat) (running : s.running = true)
      (due : s.Due resume rig) (aside : Aside rig other) :
      Step [] [] s (s.ran other resume budget)
  | failed {s : Stage σ} {fault : RunFault} (last : s.last = .failed fault) :
      Step [] [] s { s with last := .done }

theorem Step.refl (s : Stage σ) : Step [] [] s s := .aside (.refl s.rig)

end Stage

namespace Bench

variable (b : Bench σ)

theorem aside_stopBlink : Aside b.rig b.stopBlink.rig := by
  rw [rig_stopBlink]
  split
  · exact .hideCaret b.rig
  · exact .refl b.rig

/-- A start throws the stage away. -/
theorem stage_start :
    ∃ rig, Aside (Engine.reset b.rig) rig ∧
      b.start.stage = ⟨true, .more, .idle, Device.restart rig⟩ := by
  obtain ⟨repaint, blink, restarted⟩ := b.exists_scheduler_restarted
  rw [start_eq, stage_schedule, stage, restarted, rig_restarted]
  refine ⟨_, ?_, rfl⟩
  split
  · exact .hideCaret _
  · exact .refl _

/-- A stop ends the run, and the rig is tidied up. -/
theorem stage_stop : ∃ rig, Aside b.rig rig ∧ b.stop.2.stage = ⟨false, .done, .idle, rig⟩ := by
  obtain ⟨repaint, blink, stopped⟩ := b.exists_scheduler_stop
  refine ⟨b.stop.2.rig, ?_, by rw [stage, stopped]⟩
  have quietened : Aside b.rig b.quietened.rig := by
    rw [rig_quietened]
    split
    · exact .trans (.hideCaret b.rig) (.releaseAll _ _)
    · exact .releaseAll b.rig _
  rw [stop_eq]
  dsimp only
  split
  · exact quietened
  · exact .trans quietened (.stop _)

/-! ## Operations -/

variable {b}

theorem steps_wake (coherent : b.scheduler.Coherent) (generation : Nat) :
    Stage.Step [] [] b.stage (b.wake generation).stage := by
  refine b.wake_cases generation ?woken ?held ?stale
  case woken =>
    intro id asleep _ _
    obtain ⟨nanoseconds, last⟩ := coherent.asleep _ asleep
    rw [stage_schedule]
    exact .woken last
  case held =>
    intro id asleep _
    obtain ⟨nanoseconds, last⟩ := coherent.asleep _ asleep
    exact .woken last
  case stale =>
    intro _
    exact .refl b.stage

theorem steps_proceed (coherent : b.scheduler.Coherent) (running : b.scheduler.running = true) :
    Stage.Step [] [] b.stage b.proceed.2.stage := by
  refine b.proceed_cases ?done ?more ?sleep ?keyless ?keyed ?asked ?prompting ?answered ?failed
  case done =>
    intro _
    exact .refl b.stage
  case more =>
    intro last
    -- A batch leaves the answers alone, so a stage without a request must hold none.
    have idle := coherent.idle (by simp [last])
    rw [stage_runBatch b idle]
    exact .ran _ running (.more last) (.refl b.rig)
  case sleep =>
    intro nanoseconds _
    rw [stage_sleep]
    exact .refl b.stage
  case keyless =>
    intro rig _ empty
    exact .aside (.missed empty)
  case keyed =>
    intro key rig last taken
    have idle := coherent.idle (by simp [last])
    rw [stage_runBatch _ (by rw [scheduler_stopBlink]; exact idle)]
    simp only [stage, scheduler_stopBlink]
    exact .ran _ running (.key last taken) (aside_stopBlink { b with rig })
  case asked =>
    intro request last idle
    exact .asked running last idle
  case prompting =>
    intro _ _ _
    exact .refl b.stage
  case answered =>
    intro request values last ready
    rw [stage_runBatch _ (by rw [scheduler_stopBlink])]
    simp only [stage, scheduler_stopBlink]
    exact .ran _ running (.answers last ready) (aside_stopBlink { b with scheduler.inputState := .idle })
  case failed =>
    intro fault last
    exact .failed last

theorem steps_step (coherent : b.scheduler.Coherent) :
    Stage.Step [] [] b.stage b.step.2.stage := by
  have taken : b.taken.scheduler.Coherent := coherent.of_same rfl rfl rfl
  refine b.step_cases ?active ?halted
  case active =>
    intro running _
    exact steps_proceed taken running
  case halted =>
    intro _
    exact .refl b.stage

theorem steps_handle (coherent : b.scheduler.Coherent) (event : SimEvent) :
    Stage.Step [] [] b.stage (b.handle event).stage := by
  cases event with
  | runStep => exact steps_step coherent
  | sleepElapsed generation => exact steps_wake coherent generation
  | repaintTick =>
      simp only [handle, stage, scheduler_repaintTick, rig_repaintTick]
      split
      · exact .aside (.takeDirty b.rig)
      · exact .refl b.stage
  | cursorTick =>
      simp only [handle, stage, scheduler_blinkTick, rig_blinkTick]
      split
      · exact .aside (.blink b.rig)
      · exact .refl b.stage
  | keyRelease code => exact .aside (.keyUp b.rig code)

end Bench

namespace Round

/-- Every move takes the stage through a step, whatever its timing. -/
theorem steps_move {r : Round σ} (coherent : r.bench.scheduler.Coherent) (m : Move) :
    Stage.Step m.keys (r.accepts m) r.bench.stage (r.move m).bench.stage := by
  cases m with
  | pause =>
      simp only [move, Bench.stage_pause]
      exact .refl r.bench.stage
  | cont =>
      simp only [move, Bench.stage_cont]
      exact .refl r.bench.stage
  | press key =>
      simp only [move]
      refine r.bench.keyDown_cases key ?resumed ?buffered
      case resumed =>
        intro _ _ _
        rw [Bench.stage_schedule]
        exact .pressed r.bench.stage key
      case buffered =>
        intro _
        exact .pressed r.bench.stage key
  | lift key => exact .aside (.keyUp r.bench.rig key)
  | liftLater | advance | drain => exact .refl r.bench.stage
  | provide values =>
      simp only [move, accepts]
      refine r.bench.provide_cases values ?accepted ?refused
      case accepted =>
        intro prompting
        rw [Bench.stage_schedule, Scheduler.isPrompting, prompting, if_pos rfl]
        exact .answered values prompting
      case refused =>
        intro closed
        rw [closed]
        exact .aside (.releaseAll r.bench.rig values)
  | next =>
      obtain ⟨b, batch⟩ := r
      cases batch with
      | nil => exact .refl b.stage
      | cons event rest => exact Bench.steps_handle coherent event
  | stray event => exact Bench.steps_handle coherent event

end Round

end PocketBasic
