import PocketBasic.Proofs.Simulator.Live

/-! # When the picture is sampled

The timer that samples the dirty area is armed by a start and disarmed by a stop, so it runs exactly as
long as the program does. A pause stops neither.
-/

namespace PocketBasic

@[simp] theorem Ticker.isActive_stop (t : Ticker) (loop : EventLoop SimEvent) :
    (t.stop loop).1.isActive = false := by
  unfold stop
  split
  · rfl
  · rename_i idle
    rw [isActive, idle]
    rfl

/-- The dirty area is sampled exactly while the program runs. -/
def Scheduler.Sampled (s : Scheduler) : Prop := s.repaint.isActive = s.running

namespace Scheduler.Sampled

variable {σ : Type} {b : Bench σ}

theorem fresh (settings : SimulatorSettings) : (Scheduler.ofSettings settings).Sampled := rfl

theorem schedule (sampled : b.scheduler.Sampled) : b.schedule.scheduler.Sampled := by
  rw [Bench.scheduler_schedule]
  exact sampled

theorem pause (sampled : b.scheduler.Sampled) : b.pause.scheduler.Sampled := by
  refine b.pause_cases ?_ ?_
  all_goals
    intro _
    exact sampled

theorem cont (sampled : b.scheduler.Sampled) : b.cont.scheduler.Sampled := by
  refine b.cont_cases ?continued ?ignored
  case continued =>
    intro _ _
    exact schedule (b := { b with scheduler.paused := false }) sampled
  case ignored =>
    intro _
    exact sampled

theorem wake (sampled : b.scheduler.Sampled) (generation : Nat) :
    (b.wake generation).scheduler.Sampled := by
  refine b.wake_cases generation ?woken ?held ?stale
  case woken =>
    intro _ _ _ _
    rw [Bench.scheduler_schedule]
    exact sampled
  all_goals
    intros
    exact sampled

theorem provide [Engine σ] (sampled : b.scheduler.Sampled) (values : List Answer) :
    (b.provide values).scheduler.Sampled := by
  refine b.provide_cases values ?accepted ?refused
  case accepted =>
    intro _
    rw [Bench.scheduler_schedule]
    exact sampled
  case refused =>
    intro _
    exact sampled

variable [Device σ]

theorem keyDown (sampled : b.scheduler.Sampled) (key : UInt8) :
    (b.keyDown key).scheduler.Sampled := by
  refine b.keyDown_cases key ?resumed ?buffered
  case resumed =>
    intro _ _ _
    rw [Bench.scheduler_schedule]
    exact sampled
  case buffered =>
    intro _
    exact sampled

variable [Engine σ]

theorem start (b : Bench σ) : b.start.scheduler.Sampled := by
  rw [Bench.start_eq, Bench.scheduler_schedule]
  simp only [Sampled, Bench.restarted, Bench.scheduler_startRepaint, Ticker.isActive_start]

theorem stop (b : Bench σ) : b.stop.2.scheduler.Sampled := by
  simp only [Sampled, Bench.stop_eq, Bench.quietened, Bench.scheduler_releaseAll,
    Bench.scheduler_stopBlink, Bench.scheduler_stopRepaint, Ticker.isActive_stop]

theorem proceed (sampled : b.scheduler.Sampled) : b.proceed.2.scheduler.Sampled := by
  refine b.proceed_cases ?done ?more ?sleep ?keyless ?keyed ?asked ?prompting ?answered ?failed
  case sleep =>
    intro nanoseconds _
    refine b.sleep_cases nanoseconds ?armed ?fresh
    all_goals
      intro _ _
      exact sampled
  all_goals
    intros
    simp only [Bench.scheduler_runBatch, Bench.scheduler_stopBlink, Bench.scheduler_startBlink]
    exact sampled

theorem handle (sampled : b.scheduler.Sampled) (event : SimEvent) :
    (b.handle event).scheduler.Sampled := by
  cases event with
  | runStep =>
      rw [Bench.handle]
      refine b.step_cases ?active ?halted
      case active =>
        intro _ _
        exact proceed (b := b.taken) sampled
      case halted =>
        intro _
        exact sampled
  | sleepElapsed generation => exact sampled.wake generation
  | repaintTick =>
      rw [Bench.handle, Bench.scheduler_repaintTick]
      exact sampled
  | cursorTick =>
      rw [Bench.handle, Bench.scheduler_blinkTick]
      exact sampled
  | keyRelease code => exact sampled

end Scheduler.Sampled

end PocketBasic
