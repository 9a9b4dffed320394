import PocketBasic.Playback
import PocketBasic.Proofs.Simulator.Round
import PocketBasic.Simulator.Window

/-! # The chain of steps

A scheduler that wants to go on posts one `runStep`, and that step posts the next. Six operations may
post it, so the scheduler keeps a flag, and the flag is right only while it agrees with what is on its
way: a step that is posted, or one that was drained and is not handled yet. A stop leaves such a step
behind, and the start after it has to take it over.
-/

namespace PocketBasic

variable {σ : Type}

/-- The flag counts the steps that are posted together with those that are `drained` and not handled
    yet. No timer delivers a step. -/
structure Bench.Chained (drained : Nat) (b : Bench σ) : Prop where
  balance : b.loop.posted.count .runStep + drained = if b.scheduler.stepPosted then 1 else 0
  untimed : ∀ timer ∈ b.loop.timers, timer.event ≠ .runStep

namespace Bench.Chained

variable {b : Bench σ} {n : Nat}

/-- A new scheduler and a loop on which nothing is left agree that no step is under way. -/
theorem fresh (settings : SimulatorSettings) (rig : σ) {loop : EventLoop SimEvent}
    (posted : loop.posted = []) (timers : loop.timers = []) :
    (⟨.ofSettings settings, rig, loop⟩ : Bench σ).Chained 0 := by
  refine ⟨?_, fun timer member => ?_⟩
  · rw [posted]
    rfl
  · rw [timers] at member
    cases member

/-- Whatever touches neither the flag nor the posted events keeps the balance. -/
theorem of_same {other : Bench σ} (chained : b.Chained n)
    (flag : other.scheduler.stepPosted = b.scheduler.stepPosted)
    (posted : other.loop.posted = b.loop.posted)
    (timers : ∀ timer ∈ other.loop.timers, timer ∈ b.loop.timers ∨ timer.event ≠ .runStep) :
    other.Chained n := by
  refine ⟨?_, ?_⟩
  · rw [posted, flag]
    exact chained.balance
  · intro timer member
    cases timers timer member with
    | inl inside => exact chained.untimed timer inside
    | inr other => exact other

/-- Posting a step raises the flag, or finds it raised. -/
theorem schedule (chained : b.Chained n) : b.schedule.Chained n := by
  refine ⟨?_, ?_⟩
  · have balance := chained.balance
    rw [posted_schedule, scheduler_schedule, List.count_append]
    cases flag : b.scheduler.stepPosted with
    | true =>
        rw [flag] at balance
        exact balance
    | false =>
        rw [flag] at balance
        simp only [Bool.false_eq_true, if_false, if_true, List.count_singleton_self] at balance ⊢
        omega
  · intro timer member
    rw [timers_schedule] at member
    exact chained.untimed timer member

/-- Handling a step uses up the one that was on its way. -/
theorem taken (chained : b.Chained (n + 1)) : b.taken.Chained n := by
  refine ⟨?_, chained.untimed⟩
  have balance := chained.balance
  -- One step is being handled, so the balance leaves none on the loop and none in the batch.
  change b.loop.posted.count .runStep + n = 0
  cases flag : b.scheduler.stepPosted with
  | true =>
      rw [flag, if_pos rfl] at balance
      omega
  | false =>
      simp only [flag, Bool.false_eq_true, if_false] at balance
      omega

/-- A drained step moves from the loop to the batch. -/
theorem drain (chained : b.Chained n) :
    { b with loop := b.loop.drain.2 }.Chained (n + b.loop.drain.1.count SimEvent.runStep) := by
  refine ⟨?_, ?_⟩
  · have balance := chained.balance
    rw [b.loop.count_drain chained.untimed]
    simp only [EventLoop.posted_drain, List.count_nil]
    omega
  · intro timer member
    obtain ⟨old, inside, _, same⟩ := b.loop.exists_of_mem_timers_drain member
    rw [← same]
    exact chained.untimed old inside

/-- A timer for anything but a step may be armed at any time. -/
theorem singleShot (chained : b.Chained n) (delay : Nat) {event : SimEvent}
    (other : event ≠ .runStep) :
    { b with loop := (b.loop.singleShot delay event).2 }.Chained n := by
  refine chained.of_same rfl rfl fun timer member => ?_
  simp only [EventLoop.timers_singleShot, List.mem_append, List.mem_singleton] at member
  obtain inside | rfl := member
  · exact .inl inside
  · exact .inr other

/-! ## Operations -/

theorem pause (chained : b.Chained n) : b.pause.Chained n := by
  refine b.pause_cases ?paused ?ignored
  case paused =>
    intro _
    exact chained.of_same rfl rfl fun _ => .inl
  case ignored =>
    intro _
    exact chained

theorem cont (chained : b.Chained n) : b.cont.Chained n := by
  refine b.cont_cases ?continued ?ignored
  case continued =>
    intro _ _
    exact schedule (chained.of_same rfl rfl fun _ => .inl)
  case ignored =>
    intro _
    exact chained

theorem wake (chained : b.Chained n) (generation : Nat) : (b.wake generation).Chained n := by
  refine b.wake_cases generation ?woken ?held ?stale
  case woken =>
    intro _ _ _ _
    exact schedule (chained.of_same rfl rfl fun _ => .inl)
  case held =>
    intro _ _ _
    exact chained.of_same rfl rfl fun _ => .inl
  case stale =>
    intro _
    exact chained

theorem sleep (chained : b.Chained n) (nanoseconds : UInt64) : (b.sleep nanoseconds).Chained n := by
  refine b.sleep_cases nanoseconds ?armed ?fresh
  case armed =>
    intro _ _
    exact chained
  case fresh =>
    intro delay _
    have other : SimEvent.sleepElapsed (b.scheduler.sleepGeneration + 1) ≠ .runStep := by simp
    exact (chained.singleShot delay other).of_same rfl rfl fun _ => .inl

theorem startBlink (chained : b.Chained n) : b.startBlink.Chained n := by
  refine chained.of_same rfl (Ticker.posted_start _ _ _) fun timer member => ?_
  cases Ticker.mem_timers_start _ _ _ member with
  | inl inside => exact .inl inside
  | inr same => exact .inr (by simp [same])

section Engine

variable [Engine σ]

theorem runBatch (chained : b.Chained n) (resume : Resume) : (b.runBatch resume).Chained n := by
  rw [runBatch_eq]
  exact schedule (chained.of_same rfl rfl fun _ => .inl)

theorem provide (chained : b.Chained n) (values : List Answer) : (b.provide values).Chained n := by
  refine b.provide_cases values ?accepted ?refused
  case accepted =>
    intro _
    exact schedule (chained.of_same rfl rfl fun _ => .inl)
  case refused =>
    intro _
    exact chained.of_same rfl rfl fun _ => .inl

end Engine

section Device

variable [Device σ]

theorem stopBlink (chained : b.Chained n) : b.stopBlink.Chained n := by
  refine chained.of_same (by rw [scheduler_stopBlink]) ?_ fun timer member => ?_
  · rw [loop_stopBlink, Ticker.posted_stop]
  · rw [loop_stopBlink] at member
    exact .inl (Ticker.mem_timers_of_stop _ _ member)

theorem keyDown (chained : b.Chained n) (key : UInt8) : (b.keyDown key).Chained n := by
  refine b.keyDown_cases key ?resumed ?buffered
  case resumed =>
    intro _ _ _
    exact schedule (chained.of_same rfl rfl fun _ => .inl)
  case buffered =>
    intro _
    exact chained.of_same rfl rfl fun _ => .inl

theorem keyUp (chained : b.Chained n) (key : UInt8) : (b.keyUp key).Chained n :=
  chained.of_same rfl rfl fun _ => .inl

theorem repaintTick (chained : b.Chained n) : b.repaintTick.2.Chained n := by
  refine chained.of_same (by rw [scheduler_repaintTick]) (by rw [loop_repaintTick]) ?_
  intro timer member
  rw [loop_repaintTick] at member
  exact .inl member

theorem blinkTick (chained : b.Chained n) : b.blinkTick.Chained n := by
  refine chained.of_same (by rw [scheduler_blinkTick]) (by rw [loop_blinkTick]) ?_
  intro timer member
  rw [loop_blinkTick] at member
  exact .inl member

variable [Engine σ]

theorem start (chained : b.Chained n) : b.start.Chained n := by
  rw [start_eq]
  obtain ⟨repaint, blink, restarted⟩ := b.exists_scheduler_restarted
  refine schedule (chained.of_same (by rw [restarted]) b.posted_restarted fun timer member => ?_)
  cases b.mem_timers_of_restarted member with
  | inl inside => exact .inl inside
  | inr same => exact .inr (by simp [same])

theorem stop (chained : b.Chained n) : b.stop.2.Chained n := by
  obtain ⟨repaint, blink, stopped⟩ := b.exists_scheduler_stop
  exact chained.of_same (by rw [stopped]) b.posted_stop fun _ => .inl ∘ b.mem_timers_of_stop

theorem proceed (chained : b.Chained n) : b.proceed.2.Chained n := by
  refine b.proceed_cases ?done ?more ?sleep ?keyless ?keyed ?asked ?prompting ?answered ?failed
  case done =>
    intro _
    exact chained
  case more =>
    intro _
    exact chained.runBatch _
  case sleep =>
    intro nanoseconds _
    exact chained.sleep nanoseconds
  case keyless =>
    intro rig _ _
    have drained : { b with rig }.Chained n := chained.of_same rfl rfl fun _ => .inl
    exact drained.startBlink
  case keyed =>
    intro key rig _ _
    have drained : { b with rig }.Chained n := chained.of_same rfl rfl fun _ => .inl
    exact drained.stopBlink.runBatch _
  case asked =>
    intro _ _ _
    exact chained.startBlink.of_same rfl rfl fun _ => .inl
  case prompting =>
    intro _ _ _
    exact chained
  case answered =>
    intro _ values _ _
    have taken : { b with scheduler.inputState := .idle }.Chained n :=
      chained.of_same rfl rfl fun _ => .inl
    exact taken.stopBlink.runBatch _
  case failed =>
    intro _ _
    exact chained.of_same rfl rfl fun _ => .inl

theorem step (chained : b.Chained (n + 1)) : b.step.2.Chained n := by
  refine b.step_cases ?active ?halted
  case active =>
    intro _ _
    exact chained.taken.proceed
  case halted =>
    intro _
    exact chained.taken

/-- Handling an event takes it out of the count. -/
theorem handle {event : SimEvent} {rest : List SimEvent}
    (chained : b.Chained ((event :: rest).count .runStep)) :
    (b.handle event).Chained (rest.count .runStep) := by
  cases event with
  | runStep =>
      rw [List.count_cons_self] at chained
      exact chained.step
  | sleepElapsed generation => exact chained.wake generation
  | repaintTick => exact chained.repaintTick
  | cursorTick => exact chained.blinkTick
  | keyRelease code => exact chained.keyUp code

end Device

end Bench.Chained

/-! ## Rounds -/

namespace Round

/-- The steps that are posted, or drained and not handled yet. -/
def inFlight (r : Round σ) : Nat := r.bench.loop.posted.count .runStep + r.batch.count .runStep

variable [Engine σ] [Device σ]

/-- The rounds that a host can get to. It handles a step only when the loop has delivered one. Once it
    has handled everything it was given, it may close the window and open another on the same loop. -/
inductive Reachable : Round σ → Prop where
  | opened (settings : SimulatorSettings) (rig : σ) : Reachable (fresh settings rig)
  | act {r : Round σ} (a : Act) (delivered : a ≠ .move (.stray .runStep)) :
      Reachable r → Reachable (r.act a)
  | reopened {r : Round σ} (w : Window σ) (shown : w.bench r.bench.loop = r.bench)
      (handled : r.batch = []) (name : String) (rig : σ) (settings : SimulatorSettings) :
      Reachable r →
        Reachable ⟨(Window.opened name rig settings).bench (w.close r.bench.loop).2, r.batch⟩

/-- A move keeps the count, unless it handles a step that nobody has posted. -/
theorem chained_move {r : Round σ} (chained : r.bench.Chained (r.batch.count .runStep)) (m : Move)
    (delivered : m ≠ .stray .runStep) :
    (r.move m).bench.Chained ((r.move m).batch.count .runStep) := by
  cases m with
  | pause => exact chained.pause
  | cont => exact chained.cont
  | press key => exact chained.keyDown key
  | lift key => exact chained.keyUp key
  | liftLater delay key => exact chained.singleShot delay (by simp)
  | provide values => exact chained.provide values
  | advance ms => exact chained.of_same rfl rfl fun _ => .inl
  | drain =>
      have drained := chained.drain
      rw [← List.count_append] at drained
      exact drained
  | next =>
      obtain ⟨b, batch⟩ := r
      cases batch with
      | nil => exact chained
      | cons event rest => exact Bench.Chained.handle chained
  | stray event =>
      have unposted : event ≠ .runStep := fun same => delivered (same ▸ rfl)
      have stray : r.bench.Chained ((event :: r.batch).count .runStep) := by
        rw [List.count_cons_of_ne unposted]
        exact chained
      exact stray.handle

theorem chained_act {r : Round σ} (chained : r.bench.Chained (r.batch.count .runStep)) (a : Act)
    (delivered : a ≠ .move (.stray .runStep)) :
    (r.act a).bench.Chained ((r.act a).batch.count .runStep) := by
  cases a with
  | start => exact chained.start
  | stop => exact chained.stop
  | move m => exact chained_move chained m fun same => delivered (same ▸ rfl)

theorem Reachable.chained {r : Round σ} (reachable : Reachable r) :
    r.bench.Chained (r.batch.count .runStep) := by
  induction reachable with
  | opened settings rig => exact .fresh settings rig rfl rfl
  | act a delivered _ ih => exact chained_act ih a delivered
  | reopened w shown handled name rig settings _ _ =>
      rw [handled]
      exact .fresh settings rig rfl rfl

/-- The flag says exactly whether a step is under way, so no two chains of steps ever run side by
    side. -/
theorem inFlight_eq_stepPosted {r : Round σ} (reachable : Reachable r) :
    r.inFlight = (if r.bench.scheduler.stepPosted then 1 else 0) ∧ r.inFlight ≤ 1 := by
  have balance : r.inFlight = if r.bench.scheduler.stepPosted then 1 else 0 :=
    reachable.chained.balance
  refine ⟨balance, ?_⟩
  rw [balance]
  split <;> omega

/-- A stop leaves the step of the run before on the loop, and the next start adds none to it. -/
theorem inFlight_started_again :
    let r := (fresh .standard (⟨.ofResults [.more], .ofLit []⟩ : Playback)).acts
      [.start, .stop, .start]
    Reachable r ∧ r.bench.loop.posted = [.runStep] ∧ r.inFlight = 1 ∧ r.inFlight ≤ 1 := by
  intro r
  have reachable : Reachable r :=
    .act .start (by decide) (.act .stop (by decide) (.act .start (by decide) (.opened _ _)))
  have counted := inFlight_eq_stepPosted reachable
  exact ⟨reachable, rfl, counted.1, counted.2⟩

end Round

end PocketBasic
