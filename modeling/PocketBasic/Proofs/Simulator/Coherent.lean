import PocketBasic.Proofs.Simulator.Round

/-! # What the scheduler waits for

The sleep under way and the state of the answer are fields of their own beside the outcome of the last
batch. They agree: nothing is left over from a wait that has ended, and nothing belongs to a wait that
the program never asked for.
-/

namespace PocketBasic

/-- Only a program that sleeps has a sleep, and only one that asks has a dialog or answers. -/
structure Scheduler.Coherent (s : Scheduler) : Prop where
  asleep : ∀ timer, s.sleep = some timer → ∃ nanoseconds, s.last = .sleep nanoseconds
  asked : s.inputState ≠ .idle → ∃ request, s.last = .input request

namespace Scheduler.Coherent

variable {s : Scheduler} {σ : Type} {b : Bench σ}

theorem of_idle (awake : s.sleep = none) (idle : s.inputState = .idle) : s.Coherent := by
  refine ⟨fun timer asleep => ?_, fun asked => absurd idle asked⟩
  rw [awake] at asleep
  cases asleep

/-- Only the three fields count. -/
theorem of_same {other : Scheduler} (coherent : s.Coherent) (sleep : other.sleep = s.sleep)
    (inputState : other.inputState = s.inputState) (last : other.last = s.last) :
    other.Coherent := by
  refine ⟨fun timer asleep => ?_, fun asked => ?_⟩
  · rw [last]
    rw [sleep] at asleep
    exact coherent.asleep timer asleep
  · rw [last]
    rw [inputState] at asked
    exact coherent.asked asked

theorem awake (coherent : s.Coherent) (other : ∀ nanoseconds, s.last ≠ .sleep nanoseconds) :
    s.sleep = none := by
  cases asleep : s.sleep with
  | none => rfl
  | some timer =>
      obtain ⟨nanoseconds, same⟩ := coherent.asleep timer asleep
      exact absurd same (other nanoseconds)

theorem idle (coherent : s.Coherent) (other : ∀ request, s.last ≠ .input request) :
    s.inputState = .idle := by
  by_cases same : s.inputState = .idle
  · exact same
  · obtain ⟨request, asked⟩ := coherent.asked same
    exact absurd asked (other request)

/-! ## Operations -/

theorem schedule (coherent : b.scheduler.Coherent) : b.schedule.scheduler.Coherent := by
  rw [Bench.scheduler_schedule]
  exact coherent.of_same rfl rfl rfl

theorem pause (coherent : b.scheduler.Coherent) : b.pause.scheduler.Coherent := by
  refine b.pause_cases ?paused ?ignored
  case paused =>
    intro _
    exact coherent.of_same rfl rfl rfl
  case ignored =>
    intro _
    exact coherent

theorem cont (coherent : b.scheduler.Coherent) : b.cont.scheduler.Coherent := by
  refine b.cont_cases ?continued ?ignored
  case continued =>
    intro _ _
    exact schedule (coherent.of_same rfl rfl rfl)
  case ignored =>
    intro _
    exact coherent

/-- A sleep that is over leaves nothing of itself behind. -/
theorem awoken (coherent : b.scheduler.Coherent) {timer : TimerId × Nat}
    (asleep : b.scheduler.sleep = some timer) :
    Scheduler.Coherent { b.scheduler with sleep := none, last := .more } := by
  obtain ⟨nanoseconds, last⟩ := coherent.asleep timer asleep
  exact of_idle rfl (coherent.idle fun request same => by rw [last] at same; cases same)

theorem wake (coherent : b.scheduler.Coherent) (generation : Nat) :
    (b.wake generation).scheduler.Coherent := by
  refine b.wake_cases generation ?woken ?held ?stale
  case woken =>
    intro id asleep _ _
    have awoken := coherent.awoken asleep
    exact schedule awoken
  case held =>
    intro id asleep _
    exact coherent.awoken asleep
  case stale =>
    intro _
    exact coherent

theorem sleep (coherent : b.scheduler.Coherent) (nanoseconds : UInt64)
    (asked : b.scheduler.last = .sleep nanoseconds) :
    (b.sleep nanoseconds).scheduler.Coherent := by
  refine b.sleep_cases nanoseconds ?armed ?fresh
  case armed =>
    intro _ _
    exact coherent
  case fresh =>
    intro delay _
    exact ⟨fun _ _ => ⟨nanoseconds, asked⟩, coherent.asked⟩

section Engine

variable [Engine σ]

/-- Any outcome is coherent if the batch leaves nothing over from the wait before it. -/
theorem runBatch (awake : b.scheduler.sleep = none) (idle : b.scheduler.inputState = .idle)
    (resume : Resume) : (b.runBatch resume).scheduler.Coherent := by
  rw [Bench.scheduler_runBatch]
  exact of_idle awake idle

theorem provide (coherent : b.scheduler.Coherent) (values : List Answer) :
    (b.provide values).scheduler.Coherent := by
  refine b.provide_cases values ?accepted ?refused
  case accepted =>
    intro prompting
    rw [Bench.scheduler_schedule]
    refine ⟨coherent.asleep, fun _ => coherent.asked ?_⟩
    rw [prompting]
    exact InputState.noConfusion
  case refused =>
    intro _
    exact coherent

end Engine

section Device

variable [Device σ]

theorem keyDown (coherent : b.scheduler.Coherent) (key : UInt8) :
    (b.keyDown key).scheduler.Coherent := by
  refine b.keyDown_cases key ?resumed ?buffered
  case resumed =>
    intro _ _ _
    exact schedule coherent
  case buffered =>
    intro _
    exact coherent

variable [Engine σ]

/-- A start is coherent, whatever the run before it has left over. -/
theorem start (b : Bench σ) : b.start.scheduler.Coherent := by
  obtain ⟨repaint, blink, restarted⟩ := b.exists_scheduler_restarted
  rw [Bench.start_eq, Bench.scheduler_schedule, restarted]
  exact of_idle rfl rfl

theorem stop (b : Bench σ) : b.stop.2.scheduler.Coherent := by
  obtain ⟨repaint, blink, stopped⟩ := b.exists_scheduler_stop
  rw [stopped]
  exact of_idle rfl rfl

theorem proceed (coherent : b.scheduler.Coherent) : b.proceed.2.scheduler.Coherent := by
  have awake := coherent.awake
  have idle := coherent.idle
  refine b.proceed_cases ?done ?more ?sleep ?keyless ?keyed ?asked ?prompting ?answered ?failed
  case done =>
    intro _
    exact coherent
  case more =>
    intro last
    exact runBatch (awake (by simp [last])) (idle (by simp [last])) _
  case sleep =>
    intro nanoseconds last
    exact coherent.sleep nanoseconds last
  case keyless =>
    intro rig _ _
    exact coherent.of_same rfl rfl rfl
  case keyed =>
    intro key rig last _
    refine runBatch ?_ ?_ _
    · rw [Bench.scheduler_stopBlink]
      exact awake (by simp [last])
    · rw [Bench.scheduler_stopBlink]
      exact idle (by simp [last])
  case asked =>
    intro request last _
    exact ⟨coherent.asleep, fun _ => ⟨request, last⟩⟩
  case prompting =>
    intro _ _ _
    exact coherent
  case answered =>
    intro request values last _
    refine runBatch ?_ ?_ _
    · rw [Bench.scheduler_stopBlink]
      exact awake (by simp [last])
    · rw [Bench.scheduler_stopBlink]
  case failed =>
    intro fault last
    exact of_idle (awake (by simp [last])) (idle (by simp [last]))

theorem step (coherent : b.scheduler.Coherent) : b.step.2.scheduler.Coherent := by
  have taken : b.taken.scheduler.Coherent := coherent.of_same rfl rfl rfl
  refine b.step_cases ?active ?halted
  case active =>
    intro _ _
    exact taken.proceed
  case halted =>
    intro _
    exact taken

theorem handle (coherent : b.scheduler.Coherent) (event : SimEvent) :
    (b.handle event).scheduler.Coherent := by
  cases event with
  | runStep => exact coherent.step
  | sleepElapsed generation => exact coherent.wake generation
  | repaintTick =>
      simp only [Bench.handle, Bench.scheduler_repaintTick]
      exact coherent
  | cursorTick =>
      simp only [Bench.handle, Bench.scheduler_blinkTick]
      exact coherent
  | keyRelease code => exact coherent

/-! ## Rounds -/

theorem move {r : Round σ} (coherent : r.bench.scheduler.Coherent) (m : Move) :
    (r.move m).bench.scheduler.Coherent := by
  cases m with
  | pause => exact coherent.pause
  | cont => exact coherent.cont
  | press key => exact coherent.keyDown key
  | provide values => exact coherent.provide values
  | lift | liftLater | advance | drain => exact coherent
  | next => exact r.bench_next_cases coherent coherent.handle
  | stray event => exact coherent.handle event

theorem act {r : Round σ} (coherent : r.bench.scheduler.Coherent) (a : Act) :
    (r.act a).bench.scheduler.Coherent := by
  cases a with
  | start => exact start _
  | stop => exact stop _
  | move m => exact coherent.move m

end Device

end Scheduler.Coherent

end PocketBasic
