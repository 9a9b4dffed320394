import PocketBasic.Proofs.Engine.Keeps
import PocketBasic.Proofs.Simulator.Round

/-! # Operations of the scheduler, seen from the rig

The scheduler reaches its rig through the operations of an engine and a device only. A preorder that each
of these moves along is therefore moved along by every operation of the scheduler. Taking the dirty area
stands apart: it is what the owner of a copy does, and undoes what the others build up.
-/

namespace PocketBasic

variable {σ α : Type} [Engine σ] [Device σ] {f : σ → α} {R : α → α → Prop}

/-- Every operation of a rig moves an observation along a preorder; editing values leaves it alone. -/
structure Rig.Along (f : σ → α) (R : α → α → Prop) : Prop where
  refl : ∀ seen, R seen seen
  trans : ∀ {first second third}, R first second → R second third → R first third
  keeps : Engine.Keeps f
  exec : ∀ rig resume budget, R (f rig) (f (Engine.exec rig resume budget).2)
  stop : ∀ rig, R (f rig) (f (Engine.stop rig).2)
  reset : ∀ rig, R (f rig) (f (Engine.reset rig))
  restart : ∀ rig, R (f rig) (f (Device.restart rig))
  takeKey : ∀ rig, R (f rig) (f (Device.takeKey rig).2)
  keyDown : ∀ rig key, R (f rig) (f (Device.keyDown rig key))
  keyUp : ∀ rig key, R (f rig) (f (Device.keyUp rig key))
  blink : ∀ rig, R (f rig) (f (Device.blink rig))
  hideCaret : ∀ rig, R (f rig) (f (Device.hideCaret rig))

namespace Rig.Along

theorem of_eq (along : Rig.Along f R) {rig other : σ} (same : f other = f rig) : R (f rig) (f other) := by
  rw [same]
  exact along.refl _

section Bench

variable (along : Rig.Along f R) (b : Bench σ)

include along

theorem schedule : R (f b.rig) (f b.schedule.rig) := by
  rw [Bench.rig_schedule]
  exact along.refl _

theorem pause : R (f b.rig) (f b.pause.rig) := by
  refine b.pause_cases ?_ ?_
  all_goals
    intro _
    exact along.refl _

theorem cont : R (f b.rig) (f b.cont.rig) := by
  refine b.cont_cases ?continued ?ignored
  case continued =>
    intro _ _
    exact along.schedule { b with scheduler.paused := false }
  case ignored =>
    intro _
    exact along.refl _

theorem wake (generation : Nat) : R (f b.rig) (f (b.wake generation).rig) := by
  refine b.wake_cases generation ?woken ?held ?stale
  case woken =>
    intro _ _ _ _
    exact along.schedule { b with scheduler.sleep := none, scheduler.last := .more }
  case held =>
    intro _ _ _
    exact along.refl _
  case stale =>
    intro _
    exact along.refl _

theorem runBatch (resume : Resume) : R (f b.rig) (f (b.runBatch resume).rig) := by
  rw [Bench.rig_runBatch]
  exact along.exec b.rig resume _

theorem stopBlink : R (f b.rig) (f b.stopBlink.rig) := by
  rw [Bench.rig_stopBlink]
  split
  · exact along.hideCaret b.rig
  · exact along.refl _

theorem keyDownBench (key : UInt8) : R (f b.rig) (f (b.keyDown key).rig) := by
  refine b.keyDown_cases key ?resumed ?buffered
  case resumed =>
    intro _ _ _
    rw [Bench.rig_schedule]
    exact along.keyDown b.rig key
  case buffered =>
    intro _
    exact along.keyDown b.rig key

theorem blinkTick : R (f b.rig) (f b.blinkTick.rig) := by
  rw [Bench.rig_blinkTick]
  split
  · exact along.blink b.rig
  · exact along.refl _

theorem provide (values : List Answer) : R (f b.rig) (f (b.provide values).rig) := by
  refine b.provide_cases values ?accepted ?refused
  case accepted =>
    intro _
    exact along.schedule { b with scheduler.inputState := .ready values }
  case refused =>
    intro _
    exact along.of_eq (along.keeps.foldl_release values b.rig)

theorem start : R (f b.rig) (f b.start.rig) := by
  have reset := along.reset b.rig
  rw [Bench.start_eq, Bench.rig_schedule, Bench.rig_restarted]
  refine along.trans ?_ (along.restart _)
  split
  · exact along.trans reset (along.hideCaret _)
  · exact reset

theorem stopBench : R (f b.rig) (f b.stop.2.rig) := by
  have quiet : R (f b.rig) (f b.quietened.rig) := by
    rw [Bench.rig_quietened, along.keeps.foldl_release]
    split
    · exact along.hideCaret b.rig
    · exact along.refl _
  rw [Bench.stop_eq]
  dsimp only
  split
  · exact quiet
  · exact along.trans quiet (along.stop _)

theorem proceed : R (f b.rig) (f b.proceed.2.rig) := by
  refine b.proceed_cases ?done ?more ?sleep ?keyless ?keyed ?asked ?prompting ?answered ?failed
  case more =>
    intro _
    exact along.runBatch b .nothing
  case sleep =>
    intro nanoseconds _
    refine b.sleep_cases nanoseconds ?armed ?fresh
    all_goals
      intro _ _
      exact along.refl _
  case keyless =>
    intro rig _ missed
    have taken := along.takeKey b.rig
    rw [missed] at taken
    exact taken
  case keyed =>
    intro key rig _ taken
    have before := along.takeKey b.rig
    rw [taken] at before
    exact along.trans before
      (along.trans (along.stopBlink { b with rig }) (along.runBatch _ _))
  case answered =>
    intro _ values _ _
    exact along.trans (along.stopBlink { b with scheduler.inputState := .idle }) (along.runBatch _ _)
  all_goals
    intros
    exact along.refl _

theorem step : R (f b.rig) (f b.step.2.rig) := by
  refine b.step_cases ?active ?halted
  case active =>
    intro _ _
    exact along.proceed b.taken
  case halted =>
    intro _
    exact along.refl _

/-- Any event but a tick that takes the dirty area. -/
theorem handle {event : SimEvent} (other : event ≠ .repaintTick) :
    R (f b.rig) (f (b.handle event).rig) := by
  cases event with
  | runStep => exact along.step b
  | sleepElapsed generation => exact along.wake b generation
  | repaintTick => exact absurd rfl other
  | cursorTick => exact along.blinkTick b
  | keyRelease code => exact along.keyUp b.rig code

end Bench

end Rig.Along

end PocketBasic
