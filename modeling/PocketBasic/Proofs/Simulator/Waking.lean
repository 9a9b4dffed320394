import PocketBasic.Proofs.Engine.KeyQueue
import PocketBasic.Proofs.Simulator.Round

/-! # What wakes a program

A program that runs, is not paused and has no step on its way must wait for something that posts one: the
end of its sleep, a key, or the answer of a dialog. A step either posts the next or leaves the program in
such a wait, and what ends a wait posts a step, or is found by the step that a continue posts.
-/

namespace PocketBasic

variable {σ : Type} [Engine σ] [Device σ] [KeyQueue σ]

/-- The program waits for something that is going to post a step. -/
inductive Bench.Waits (b : Bench σ) : Prop where
  | sleep (nanoseconds : UInt64) (timer : TimerId × Nat)
      (last : b.scheduler.last = .sleep nanoseconds) (asleep : b.scheduler.sleep = some timer)
  | key (last : b.scheduler.last = .key) (empty : KeyQueue.waiting b.rig = [])
      (blinking : b.scheduler.blink.isActive = true)
  | input (request : Request) (last : b.scheduler.last = .input request)
      (prompting : b.scheduler.inputState = .prompting)

/-- A program that could go on has a step on its way, or waits. -/
def Bench.Awake (b : Bench σ) : Prop :=
  b.scheduler.running = true → b.scheduler.paused = false → b.scheduler.stepPosted = false → b.Waits

/-- The step says that the run is over. -/
def StepResult.isEnd : StepResult → Bool
  | .finished | .failed _ => true
  | _ => false

/-- The step asks for the dialog. -/
def StepResult.isAsking : StepResult → Bool
  | .awaitingInput _ => true
  | _ => false

namespace Bench.Awake

variable {b other : Bench σ}

theorem of_posted (posted : b.scheduler.stepPosted = true) : b.Awake := by
  intro _ _ missing
  rw [posted] at missing
  cases missing

theorem of_halted (halted : (b.scheduler.running && !b.scheduler.paused) = false) : b.Awake := by
  intro running active _
  rw [running, active] at halted
  cases halted

theorem schedule (b : Bench σ) : b.schedule.Awake := by
  refine of_posted ?_
  rw [scheduler_schedule]

/-- Whatever leaves the scheduler and the queue of keys alone leaves the wait alone. -/
theorem of_same (awake : b.Awake) (scheduler : other.scheduler = b.scheduler)
    (waiting : KeyQueue.waiting other.rig = KeyQueue.waiting b.rig) : other.Awake := by
  intro running active missing
  rw [scheduler] at running active missing
  cases awake running active missing with
  | sleep nanoseconds timer last asleep =>
      exact .sleep nanoseconds timer (by rw [scheduler, last]) (by rw [scheduler, asleep])
  | key last empty blinking =>
      exact .key (by rw [scheduler, last]) (by rw [waiting, empty]) (by rw [scheduler, blinking])
  | input request last prompting =>
      exact .input request (by rw [scheduler, last]) (by rw [scheduler, prompting])

/-! ## Operations -/

theorem pause (awake : b.Awake) : b.pause.Awake := by
  refine b.pause_cases ?paused ?ignored
  case paused =>
    intro _
    exact of_halted (Bool.and_false _)
  case ignored =>
    intro _
    exact awake

theorem cont (awake : b.Awake) : b.cont.Awake := by
  refine b.cont_cases ?continued ?ignored
  case continued =>
    intro _ _
    exact schedule _
  case ignored =>
    intro _
    exact awake

theorem wake (awake : b.Awake) (generation : Nat) : (b.wake generation).Awake := by
  refine b.wake_cases generation ?woken ?held ?stale
  case woken =>
    intro _ _ _ _
    exact schedule _
  case held =>
    intro _ _ halted
    exact of_halted halted
  case stale =>
    intro _
    exact awake

theorem provide (awake : b.Awake) (values : List Answer) : (b.provide values).Awake := by
  refine b.provide_cases values ?accepted ?refused
  case accepted =>
    intro _
    exact schedule _
  case refused =>
    intro _
    exact awake.of_same rfl (KeyQueue.keeps.foldl_release values b.rig)

/-- A key that is only buffered is pressed while the program does not wait for one. -/
theorem keyDown (awake : b.Awake) (key : UInt8) : (b.keyDown key).Awake := by
  refine b.keyDown_cases key ?resumed ?buffered
  case resumed =>
    intro _ _ _
    exact schedule _
  case buffered =>
    intro other running active missing
    cases awake running active missing with
    | sleep nanoseconds timer last asleep => exact .sleep nanoseconds timer last asleep
    | key last _ _ => exact absurd last (other running active)
    | input request last prompting => exact .input request last prompting

theorem keyUp (awake : b.Awake) (key : UInt8) : (b.keyUp key).Awake :=
  awake.of_same rfl (KeyQueue.waiting_keyUp b.rig key)

theorem repaintTick (awake : b.Awake) : b.repaintTick.2.Awake := by
  refine awake.of_same b.scheduler_repaintTick ?_
  rw [rig_repaintTick]
  split
  · exact KeyQueue.waiting_takeDirty b.rig
  · rfl

theorem blinkTick (awake : b.Awake) : b.blinkTick.Awake := by
  refine awake.of_same b.scheduler_blinkTick ?_
  rw [rig_blinkTick]
  split
  · exact KeyQueue.waiting_blink b.rig
  · rfl

theorem start (b : Bench σ) : b.start.Awake := by
  rw [start_eq]
  exact schedule _

theorem stop (b : Bench σ) : b.stop.2.Awake := by
  obtain ⟨repaint, blink, stopped⟩ := b.exists_scheduler_stop
  refine of_halted ?_
  rw [stopped]
  rfl

theorem runBatch (b : Bench σ) (resume : Resume) : (b.runBatch resume).Awake := by
  refine of_posted ?_
  rw [scheduler_runBatch]

/-- A step that does not end the run posts the next one or leaves the program waiting. -/
theorem step (b : Bench σ) : b.step.1.isEnd = false → b.step.2.Awake := by
  refine b.step_cases ?active ?halted
  case halted =>
    intro halted _
    exact of_halted halted
  case active =>
    intro running active
    refine b.taken.proceed_cases ?done ?more ?sleep ?keyless ?keyed ?asked ?prompting ?answered
      ?failed
    case done =>
      intro _ goesOn
      cases goesOn
    case more =>
      intro _ _
      exact runBatch _ _
    case sleep =>
      intro nanoseconds last _
      refine b.taken.sleep_cases nanoseconds ?armed ?fresh
      case armed =>
        intro timer asleep _ _ _
        exact .sleep nanoseconds timer last asleep
      case fresh =>
        intro delay _ _ _ _
        exact .sleep nanoseconds _ last rfl
    case keyless =>
      intro rig last missed _ _ _ _
      have front := KeyQueue.takeKey_fst b.rig
      have left := KeyQueue.waiting_takeKey b.rig
      change Device.takeKey b.rig = (none, rig) at missed
      rw [missed] at front left
      have empty := List.head?_eq_none_iff.mp front.symm
      rw [empty] at left
      exact .key last left (Ticker.isActive_start _ _ _)
    case keyed =>
      intro key rig _ _ _
      exact runBatch _ _
    case asked =>
      intro request last _ _ _ _ _
      exact .input request last rfl
    case prompting =>
      intro request last prompting _ _ _ _
      exact .input request last prompting
    case answered =>
      intro _ values _ _ _
      exact runBatch _ _
    case failed =>
      intro _ _ goesOn
      cases goesOn

end Bench.Awake

end PocketBasic
