import PocketBasic.Proofs.Engine.Ledger
import PocketBasic.Proofs.Simulator.Live

/-! # The values that a scheduler holds

Between the dialog and the program the scheduler holds the values of an answer. It gets them from the
owner of a dialog, hands them to the next batch, and gives them back when the run is stopped before that. A
start forgets them, so it must not find any.
-/

namespace PocketBasic

/-- The values that wait for the next batch. -/
def Scheduler.held (s : Scheduler) : List Answer :=
  match s.inputState with
  | .ready values => values
  | _ => []

theorem Scheduler.held_of_idle {s : Scheduler} (idle : s.inputState = .idle) : s.held = [] := by
  rw [held, idle]

namespace Bench

variable {σ : Type}

/-- How often a value has been entered or waits for a batch. -/
def tally (b : Bench (Ledger σ)) (value : Answer) : Nat :=
  b.rig.tally b.scheduler.held value

variable (b : Bench (Ledger σ)) (value : Answer)

theorem tally_of_same {b other : Bench (Ledger σ)} (books : other.rig.books = b.rig.books)
    (inputState : other.scheduler.inputState = b.scheduler.inputState) :
    other.tally value = b.tally value := by
  rw [tally, tally, Ledger.tally_of_books _ _ books, Scheduler.held, inputState]
  rfl

theorem tally_schedule : b.schedule.tally value = b.tally value := by
  rw [tally, rig_schedule, scheduler_schedule]
  rfl

theorem tally_pause : b.pause.tally value = b.tally value := by
  refine b.pause_cases ?_ ?_
  all_goals
    intro _
    rfl

theorem tally_cont : b.cont.tally value = b.tally value := by
  refine b.cont_cases ?continued ?ignored
  case continued =>
    intro _ _
    exact tally_schedule { b with scheduler.paused := false } value
  case ignored =>
    intro _
    rfl

theorem tally_wake (generation : Nat) : (b.wake generation).tally value = b.tally value := by
  refine b.wake_cases generation ?woken ?held ?stale
  case woken =>
    intro _ _ _ _
    exact tally_schedule { b with scheduler.sleep := none, scheduler.last := .more } value
  all_goals
    intros
    rfl

section Engine

variable [Engine σ]

/-- A batch gets what it is resumed with. -/
theorem tally_runBatch (resume : Resume) :
    (b.runBatch resume).tally value = b.rig.tally (resume.values ++ b.scheduler.held) value := by
  rw [runBatch_eq, tally_schedule]
  exact b.rig.tally_exec _ value resume _

theorem tally_releaseAll (values : List Answer) :
    (b.releaseAll values).tally value = b.tally value + values.count value := by
  rw [tally, rig_releaseAll, Ledger.tally_foldl_release]
  simp only [tally, Ledger.tally, List.count_append, scheduler_releaseAll]
  omega

/-- Values that nobody has asked for go back at once. -/
theorem tally_provide (values : List Answer) :
    (b.provide values).tally value = b.tally value + values.count value := by
  refine b.provide_cases values ?accepted ?refused
  case accepted =>
    intro prompting
    have nothing : b.scheduler.held = [] := by rw [Scheduler.held, prompting]
    rw [tally_schedule, tally, tally, nothing, ← Ledger.tally_append]
    rfl
  case refused =>
    intro _
    exact b.tally_releaseAll value values

end Engine

section Device

variable [Device σ]

theorem tally_stopBlink : b.stopBlink.tally value = b.tally value := by
  refine tally_of_same value ?_ ?_
  · rw [rig_stopBlink]
    split <;> rfl
  · rw [scheduler_stopBlink]

theorem tally_keyDown (key : UInt8) : (b.keyDown key).tally value = b.tally value := by
  refine b.keyDown_cases key ?resumed ?buffered
  case resumed =>
    intro _ _ _
    rw [tally_schedule]
    rfl
  case buffered =>
    intro _
    rfl

theorem tally_repaintTick : b.repaintTick.2.tally value = b.tally value := by
  refine tally_of_same value ?_ ?_
  · rw [rig_repaintTick]
    split <;> rfl
  · rw [scheduler_repaintTick]

theorem tally_blinkTick : b.blinkTick.tally value = b.tally value := by
  refine tally_of_same value ?_ ?_
  · rw [rig_blinkTick]
    split <;> rfl
  · rw [scheduler_blinkTick]

variable [Engine σ]

/-- A start after a stop finds nothing that it could forget. -/
theorem tally_start {b : Bench (Ledger σ)} (idle : b.scheduler.inputState = .idle) :
    b.start.tally value = b.tally value := by
  obtain ⟨repaint, blink, restarted⟩ := b.exists_scheduler_restarted
  rw [start_eq, tally_schedule]
  refine tally_of_same value ?_ ?_
  · rw [rig_restarted]
    split <;> rfl
  · rw [restarted, idle]

theorem tally_stop : b.stop.2.tally value = b.tally value := by
  obtain ⟨repaint, blink, stopped⟩ := b.exists_scheduler_stop
  have quiet : b.quietened.rig.tally [] value = b.tally value := by
    rw [rig_quietened, Ledger.tally_foldl_release, List.append_nil]
    split <;> rfl
  rw [tally, stopped, ← quiet]
  refine Ledger.tally_of_books _ value ?_
  rw [stop_eq]
  dsimp only
  split <;> rfl

theorem tally_proceed : b.proceed.2.tally value = b.tally value := by
  refine b.proceed_cases ?done ?more ?sleep ?keyless ?keyed ?asked ?prompting ?answered ?failed
  case more =>
    intro _
    exact b.tally_runBatch value .nothing
  case sleep =>
    intro nanoseconds _
    refine b.sleep_cases nanoseconds ?armed ?fresh
    all_goals
      intros
      rfl
  case keyless =>
    intro rig _ missed
    have same : rig = (Device.takeKey b.rig).2 := (congrArg Prod.snd missed).symm
    subst same
    rfl
  case keyed =>
    intro key rig _ taken
    have same : rig = (Device.takeKey b.rig).2 := (congrArg Prod.snd taken).symm
    subst same
    rw [tally_runBatch]
    exact tally_stopBlink { b with rig := (Device.takeKey b.rig).2 } value
  case asked =>
    intro request _ idle
    rw [tally, tally, Scheduler.held_of_idle idle]
    rfl
  case answered =>
    intro request values _ ready
    have waiting : b.scheduler.held = values := by rw [Scheduler.held, ready]
    rw [tally_runBatch, scheduler_stopBlink, tally, waiting, Scheduler.held_of_idle rfl, List.append_nil]
    refine Ledger.tally_of_books _ value ?_
    rw [rig_stopBlink]
    split <;> rfl
  all_goals
    intros
    rfl

/-- While no program runs an answer neither comes nor goes. -/
theorem inputState_handle_of_halted {b : Bench σ} (halted : b.scheduler.running = false)
    (event : SimEvent) : (b.handle event).scheduler.inputState = b.scheduler.inputState := by
  cases event with
  | runStep =>
      rw [handle]
      refine b.step_cases ?active ?halted
      case active =>
        intro running _
        exact absurd (running.symm.trans halted) Bool.noConfusion
      case halted =>
        intro _
        rfl
  | sleepElapsed generation => exact b.inputState_wake generation
  | repaintTick => exact congrArg Scheduler.inputState b.scheduler_repaintTick
  | cursorTick => exact congrArg Scheduler.inputState b.scheduler_blinkTick
  | keyRelease code => rfl

theorem tally_handle (event : SimEvent) : (b.handle event).tally value = b.tally value := by
  cases event with
  | runStep =>
      rw [handle]
      refine b.step_cases ?active ?halted
      case active =>
        intro _ _
        exact b.taken.tally_proceed value
      case halted =>
        intro _
        rfl
  | sleepElapsed generation => exact b.tally_wake value generation
  | repaintTick => exact b.tally_repaintTick value
  | cursorTick => exact b.tally_blinkTick value
  | keyRelease code => rfl

end Device

end Bench

end PocketBasic
