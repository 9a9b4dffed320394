import PocketBasic.Proofs.Simulator.Round

/-! # The timers of a run

A sleep ends because a timer on the loop carries its number, or because that event is drained already.
The caret and the samples of the dirty area have timers of their own, which are disarmed by name at any
time; no name is ever given out twice, so that never costs a sleep its timer.
-/

namespace PocketBasic

/-! ## Names of timers -/

namespace EventLoop

variable {ε : Type} {l first second : EventLoop ε}

/-- The names of the timers have been given out. -/
def Numbered (l : EventLoop ε) : Prop := ∀ timer ∈ l.timers, timer.id < l.nextId

/-- Every timer was there before with its event, or has a new name. -/
structure Grows (first second : EventLoop ε) : Prop where
  nextId : first.nextId ≤ second.nextId
  timers : ∀ timer ∈ second.timers,
    (∃ old ∈ first.timers, old.id = timer.id ∧ old.event = timer.event) ∨
      first.nextId ≤ timer.id ∧ timer.id < second.nextId

theorem Grows.of_subset (nextId : second.nextId = first.nextId)
    (timers : ∀ timer ∈ second.timers, timer ∈ first.timers) : Grows first second :=
  ⟨Nat.le_of_eq nextId.symm, fun timer member => .inl ⟨timer, timers timer member, rfl, rfl⟩⟩

theorem grows_kill (l : EventLoop ε) (id : TimerId) : Grows l (l.kill id) :=
  .of_subset rfl fun _ member => (l.mem_timers_kill.mp member).1

theorem grows_drain (l : EventLoop ε) : Grows l l.drain.2 :=
  ⟨Nat.le_refl _, fun _ member => .inl (l.exists_of_mem_timers_drain member)⟩

theorem grows_addTimer (l : EventLoop ε) (delay : Nat) (interval : Option Nat) (event : ε) :
    Grows l (l.addTimer delay interval event).2 := by
  refine ⟨Nat.le_succ _, fun timer member => ?_⟩
  simp only [addTimer, List.mem_append, List.mem_singleton] at member
  cases member with
  | inl inside => exact .inl ⟨timer, inside, rfl, rfl⟩
  | inr same =>
      subst same
      exact .inr ⟨Nat.le_refl _, Nat.lt_succ_self _⟩

theorem Numbered.grows (numbered : first.Numbered) (grows : Grows first second) :
    second.Numbered := by
  intro timer member
  cases grows.timers timer member with
  | inl known =>
      obtain ⟨old, inside, same, _⟩ := known
      rw [← same]
      exact Nat.lt_of_lt_of_le (numbered old inside) grows.nextId
  | inr new => exact new.2

end EventLoop

namespace Ticker

variable {t : Ticker} {event : SimEvent} {loop other : EventLoop SimEvent}

/-- Whatever timer has the name that the ticker has kept is the ticker's own. -/
def Owns (t : Ticker) (event : SimEvent) (loop : EventLoop SimEvent) : Prop :=
  ∀ id, t.timer = some id →
    id < loop.nextId ∧ ∀ timer ∈ loop.timers, timer.id = id → timer.event = event

theorem Owns.grows (owns : t.Owns event loop) (grows : loop.Grows other) : t.Owns event other := by
  intro id armed
  obtain ⟨given, own⟩ := owns id armed
  refine ⟨Nat.lt_of_lt_of_le given grows.nextId, fun timer member same => ?_⟩
  cases grows.timers timer member with
  | inl known =>
      obtain ⟨old, inside, oldId, oldEvent⟩ := known
      rw [← oldEvent]
      exact own old inside (oldId.trans same)
  | inr new =>
      rw [same] at new
      exact absurd given (Nat.not_lt.mpr new.1)

theorem grows_start (t : Ticker) (event : SimEvent) (loop : EventLoop SimEvent) :
    loop.Grows (t.start event loop).2 := by
  unfold start
  split
  · exact .of_subset rfl fun _ => id
  · exact loop.grows_addTimer _ _ _

theorem grows_stop (t : Ticker) (loop : EventLoop SimEvent) : loop.Grows (t.stop loop).2 := by
  unfold stop
  split
  · exact loop.grows_kill _
  · exact .of_subset rfl fun _ => id

theorem Owns.start (owns : t.Owns event loop) (numbered : loop.Numbered) :
    (t.start event loop).1.Owns event (t.start event loop).2 := by
  unfold Ticker.start
  split
  · exact owns
  · intro id armed
    obtain rfl := Option.some.inj armed
    refine ⟨Nat.lt_succ_self _, fun timer member same => ?_⟩
    simp only [EventLoop.timers_startTimer, List.mem_append, List.mem_singleton] at member
    cases member with
    | inl inside =>
        have given := numbered timer inside
        exact absurd same (Nat.ne_of_lt given)
    | inr new => rw [new]

theorem owns_stop (t : Ticker) (event : SimEvent) (loop : EventLoop SimEvent) :
    (t.stop loop).1.Owns event (t.stop loop).2 := by
  unfold stop
  split
  · intro id armed
    cases armed
  · rename_i idle
    intro id armed
    rw [idle] at armed
    cases armed

/-- Disarming a ticker spares every timer of another event. -/
theorem Owns.mem_timers_stop (owns : t.Owns event loop) {timer : Timer SimEvent}
    (member : timer ∈ loop.timers) (other : timer.event ≠ event) :
    timer ∈ (t.stop loop).2.timers := by
  unfold stop
  split
  · rename_i id armed
    exact loop.mem_timers_kill.mpr ⟨member, fun same => other ((owns id armed).2 timer member same)⟩
  · exact member

end Ticker

/-! ## Sleeping -/

/-- The tickers know their timers, and the sleep under way is going to end: its timer is on the loop, or
    its event is in the batch that is being handled. -/
structure Bench.Armed {σ : Type} (batch : List SimEvent) (b : Bench σ) : Prop where
  numbered : b.loop.Numbered
  repaint : b.scheduler.repaint.Owns .repaintTick b.loop
  blink : b.scheduler.blink.Owns .cursorTick b.loop
  asleep : ∀ id generation, b.scheduler.sleep = some (id, generation) →
    (∃ timer ∈ b.loop.timers, timer.id = id ∧ timer.event = .sleepElapsed generation) ∨
      .sleepElapsed generation ∈ batch

namespace Bench.Armed

variable {σ : Type} {b other : Bench σ} {batch : List SimEvent}

theorem fresh (settings : SimulatorSettings) (rig : σ) {loop : EventLoop SimEvent}
    (timers : loop.timers = []) : (⟨.ofSettings settings, rig, loop⟩ : Bench σ).Armed [] := by
  refine ⟨fun timer member => ?_, fun _ armed => ?_, fun _ armed => ?_, fun _ _ asleep => ?_⟩
  · rw [timers] at member
    cases member
  · cases armed
  · cases armed
  · cases asleep

/-- Only the tickers, the sleep and the timers count. -/
theorem of_same (armed : b.Armed batch) (repaint : other.scheduler.repaint = b.scheduler.repaint)
    (blink : other.scheduler.blink = b.scheduler.blink)
    (sleep : other.scheduler.sleep = b.scheduler.sleep)
    (timers : other.loop.timers = b.loop.timers) (nextId : other.loop.nextId = b.loop.nextId) :
    other.Armed batch := by
  have grows : b.loop.Grows other.loop := .of_subset nextId fun _ member => timers ▸ member
  refine ⟨armed.numbered.grows grows, ?_, ?_, ?_⟩
  · rw [repaint]
    exact armed.repaint.grows grows
  · rw [blink]
    exact armed.blink.grows grows
  · rw [sleep, timers]
    exact armed.asleep

theorem withRig (armed : b.Armed batch) (rig : σ) : { b with rig }.Armed batch :=
  armed.of_same rfl rfl rfl rfl rfl

/-- A sleep that is over, or called off, needs no timer. -/
theorem awake (armed : b.Armed batch) (repaint : other.scheduler.repaint = b.scheduler.repaint)
    (blink : other.scheduler.blink = b.scheduler.blink) (sleep : other.scheduler.sleep = none)
    (grows : b.loop.Grows other.loop) : other.Armed batch := by
  refine ⟨armed.numbered.grows grows, ?_, ?_, ?_⟩
  · rw [repaint]
    exact armed.repaint.grows grows
  · rw [blink]
    exact armed.blink.grows grows
  · intro id generation asleep
    rw [sleep] at asleep
    cases asleep

/-- A sleep keeps its timer on any loop that keeps the timers of sleeps. -/
theorem kept (armed : b.Armed batch) {loop : EventLoop SimEvent}
    (keeps : ∀ timer ∈ b.loop.timers, (∃ generation, timer.event = .sleepElapsed generation) →
      timer ∈ loop.timers) (id : TimerId) (generation : Nat)
    (asleep : b.scheduler.sleep = some (id, generation)) :
    (∃ timer ∈ loop.timers, timer.id = id ∧ timer.event = .sleepElapsed generation) ∨
      .sleepElapsed generation ∈ batch := by
  cases armed.asleep id generation asleep with
  | inl alive =>
      obtain ⟨timer, member, same, event⟩ := alive
      exact .inl ⟨timer, keeps timer member ⟨generation, event⟩, same, event⟩
  | inr drained => exact .inr drained

theorem weaken {more : List SimEvent} (armed : b.Armed batch) (inside : batch ⊆ more) : b.Armed more :=
  ⟨armed.numbered, armed.repaint, armed.blink, fun id generation asleep =>
    (armed.asleep id generation asleep).imp_right fun drained => inside drained⟩

/-- An event that does not end the sleep under way need not be waited for. -/
theorem skip {event : SimEvent} (armed : b.Armed (event :: batch))
    (other : ∀ id generation, b.scheduler.sleep = some (id, generation) →
      event ≠ .sleepElapsed generation) : b.Armed batch := by
  refine ⟨armed.numbered, armed.repaint, armed.blink, fun id generation asleep => ?_⟩
  cases armed.asleep id generation asleep with
  | inl alive => exact .inl alive
  | inr drained =>
      cases List.mem_cons.mp drained with
      | inl same => exact absurd same.symm (other id generation asleep)
      | inr later => exact .inr later

/-! ### The loop -/

theorem drain (armed : b.Armed batch) :
    { b with loop := b.loop.drain.2 }.Armed (batch ++ b.loop.drain.1) := by
  have grows := b.loop.grows_drain
  refine ⟨armed.numbered.grows grows, armed.repaint.grows grows, armed.blink.grows grows, ?_⟩
  intro id generation asleep
  cases armed.asleep id generation asleep with
  | inl alive =>
      obtain ⟨timer, member, same, event⟩ := alive
      cases b.loop.mem_timers_drain_or member with
      | inl left => exact .inl ⟨timer, left, same, event⟩
      | inr due => exact .inr (List.mem_append_right batch (event ▸ due))
  | inr drained => exact .inr (List.mem_append_left _ drained)

theorem singleShot (armed : b.Armed batch) (delay : Nat) (event : SimEvent) :
    { b with loop := (b.loop.singleShot delay event).2 }.Armed batch := by
  have grows : b.loop.Grows (b.loop.singleShot delay event).2 := b.loop.grows_addTimer _ _ _
  exact ⟨armed.numbered.grows grows, armed.repaint.grows grows, armed.blink.grows grows,
    armed.kept fun timer member _ => List.mem_append_left _ member⟩

/-! ### Operations -/

theorem schedule (armed : b.Armed batch) : b.schedule.Armed batch := by
  refine armed.of_same ?_ ?_ ?_ b.timers_schedule b.nextId_schedule <;> rw [scheduler_schedule]

theorem cancelSleep (armed : b.Armed batch) : b.cancelSleep.Armed batch := by
  refine b.cancelSleep_cases ?cancelled ?awake
  case cancelled =>
    intro id _ _
    exact armed.awake rfl rfl rfl (b.loop.grows_kill id)
  case awake =>
    intro _
    exact armed

theorem startRepaint (armed : b.Armed batch) : b.startRepaint.Armed batch := by
  have grows := Ticker.grows_start b.scheduler.repaint .repaintTick b.loop
  exact ⟨armed.numbered.grows grows, armed.repaint.start armed.numbered, armed.blink.grows grows,
    armed.kept fun _ member _ => Ticker.mem_timers_start_of_mem _ _ _ member⟩

theorem startBlink (armed : b.Armed batch) : b.startBlink.Armed batch := by
  have grows := Ticker.grows_start b.scheduler.blink .cursorTick b.loop
  exact ⟨armed.numbered.grows grows, armed.repaint.grows grows, armed.blink.start armed.numbered,
    armed.kept fun _ member _ => Ticker.mem_timers_start_of_mem _ _ _ member⟩

theorem stopRepaint (armed : b.Armed batch) : b.stopRepaint.Armed batch := by
  have grows := Ticker.grows_stop b.scheduler.repaint b.loop
  refine ⟨armed.numbered.grows grows, Ticker.owns_stop _ _ _, armed.blink.grows grows, ?_⟩
  refine armed.kept fun timer member sleeping => armed.repaint.mem_timers_stop member ?_
  obtain ⟨generation, event⟩ := sleeping
  rw [event]
  exact SimEvent.noConfusion

theorem pause (armed : b.Armed batch) : b.pause.Armed batch := by
  refine b.pause_cases ?paused ?ignored
  case paused =>
    intro _
    exact armed.of_same rfl rfl rfl rfl rfl
  case ignored =>
    intro _
    exact armed

theorem cont (armed : b.Armed batch) : b.cont.Armed batch := by
  refine b.cont_cases ?continued ?ignored
  case continued =>
    intro _ _
    exact schedule (armed.of_same rfl rfl rfl rfl rfl)
  case ignored =>
    intro _
    exact armed

/-- The event of a sleep ends it, and an event of another sleep does not count. -/
theorem wake {generation : Nat} (armed : b.Armed (.sleepElapsed generation :: batch)) :
    (b.wake generation).Armed batch := by
  have awoken {id : TimerId} (asleep : b.scheduler.sleep = some (id, generation)) :
      { b with scheduler.sleep := none, scheduler.last := .more }.Armed batch := by
    refine ⟨armed.numbered, armed.repaint, armed.blink, fun _ _ asleep => ?_⟩
    cases asleep
  refine b.wake_cases generation ?woken ?held ?stale
  case woken =>
    intro id asleep _ _
    exact schedule (awoken asleep)
  case held =>
    intro id asleep _
    exact awoken asleep
  case stale =>
    intro other
    refine armed.skip fun id armed asleep same => ?_
    cases same
    exact other id asleep

theorem sleep (armed : b.Armed batch) (nanoseconds : UInt64) : (b.sleep nanoseconds).Armed batch := by
  refine b.sleep_cases nanoseconds ?armed ?fresh
  case armed =>
    intro _ _
    exact armed
  case fresh =>
    intro delay _
    have shot := armed.singleShot delay (.sleepElapsed (b.scheduler.sleepGeneration + 1))
    refine ⟨shot.numbered, shot.repaint, shot.blink, fun id generation asleep => ?_⟩
    obtain ⟨rfl, rfl⟩ := Prod.mk.inj (Option.some.inj asleep)
    exact .inl ⟨_, List.mem_append_right _ (List.mem_singleton_self _), rfl, rfl⟩

section Engine

variable [Engine σ]

theorem runBatch (armed : b.Armed batch) (resume : Resume) : (b.runBatch resume).Armed batch := by
  rw [runBatch_eq]
  exact schedule (armed.of_same rfl rfl rfl rfl rfl)

theorem provide (armed : b.Armed batch) (values : List Answer) : (b.provide values).Armed batch := by
  refine b.provide_cases values ?accepted ?refused
  case accepted =>
    intro _
    exact schedule (armed.of_same rfl rfl rfl rfl rfl)
  case refused =>
    intro _
    exact armed.of_same rfl rfl rfl rfl rfl

end Engine

section Device

variable [Device σ]

theorem stopBlink (armed : b.Armed batch) : b.stopBlink.Armed batch := by
  have grows := Ticker.grows_stop b.scheduler.blink b.loop
  refine ⟨?_, ?_, ?_, ?_⟩ <;> rw [loop_stopBlink]
  · exact armed.numbered.grows grows
  · rw [scheduler_stopBlink]
    exact armed.repaint.grows grows
  · rw [scheduler_stopBlink]
    exact Ticker.owns_stop _ _ _
  · rw [scheduler_stopBlink]
    refine armed.kept fun timer member sleeping => armed.blink.mem_timers_stop member ?_
    obtain ⟨generation, event⟩ := sleeping
    rw [event]
    exact SimEvent.noConfusion

theorem keyDown (armed : b.Armed batch) (key : UInt8) : (b.keyDown key).Armed batch := by
  refine b.keyDown_cases key ?resumed ?buffered
  case resumed =>
    intro _ _ _
    exact schedule (armed.of_same rfl rfl rfl rfl rfl)
  case buffered =>
    intro _
    exact armed.of_same rfl rfl rfl rfl rfl

theorem keyUp (armed : b.Armed batch) (key : UInt8) : (b.keyUp key).Armed batch :=
  armed.of_same rfl rfl rfl rfl rfl

theorem repaintTick (armed : b.Armed batch) : b.repaintTick.2.Armed batch := by
  refine armed.of_same ?_ ?_ ?_ ?_ ?_
  all_goals first | rw [scheduler_repaintTick] | rw [loop_repaintTick]

theorem blinkTick (armed : b.Armed batch) : b.blinkTick.Armed batch := by
  refine armed.of_same ?_ ?_ ?_ ?_ ?_
  all_goals first | rw [scheduler_blinkTick] | rw [loop_blinkTick]

variable [Engine σ]

theorem start (armed : b.Armed batch) : b.start.Armed batch := by
  have reset := (armed.withRig (Engine.reset b.rig)).stopBlink
  have awake :=
    (reset.withRig (Device.restart { b with rig := Engine.reset b.rig }.stopBlink.rig)).cancelSleep
  unfold Bench.start
  exact schedule (startRepaint (awake.of_same rfl rfl rfl rfl rfl))

theorem stop (armed : b.Armed batch) : b.stop.2.Armed batch := by
  have quietened : b.quietened.Armed batch :=
    armed.cancelSleep.stopRepaint.stopBlink.of_same rfl rfl rfl rfl rfl
  rw [stop_eq]
  exact quietened.of_same rfl rfl rfl rfl rfl

theorem proceed (armed : b.Armed batch) : b.proceed.2.Armed batch := by
  refine b.proceed_cases ?done ?more ?sleep ?keyless ?keyed ?asked ?prompting ?answered ?failed
  case done =>
    intro _
    exact armed
  case more =>
    intro _
    exact armed.runBatch _
  case sleep =>
    intro nanoseconds _
    exact armed.sleep nanoseconds
  case keyless =>
    intro rig _ _
    exact (armed.withRig rig).startBlink
  case keyed =>
    intro key rig _ _
    exact (armed.withRig rig).stopBlink.runBatch _
  case asked =>
    intro _ _ _
    exact armed.startBlink.of_same rfl rfl rfl rfl rfl
  case prompting =>
    intro _ _ _
    exact armed
  case answered =>
    intro _ values _ _
    have taken : { b with scheduler.inputState := .idle }.Armed batch :=
      armed.of_same rfl rfl rfl rfl rfl
    exact taken.stopBlink.runBatch _
  case failed =>
    intro _ _
    exact armed.of_same rfl rfl rfl rfl rfl

theorem step (armed : b.Armed batch) : b.step.2.Armed batch := by
  have taken : b.taken.Armed batch := armed.of_same rfl rfl rfl rfl rfl
  refine b.step_cases ?active ?halted
  case active =>
    intro _ _
    exact taken.proceed
  case halted =>
    intro _
    exact taken

theorem handle {event : SimEvent} (armed : b.Armed (event :: batch)) :
    (b.handle event).Armed batch := by
  cases event with
  | sleepElapsed generation => exact armed.wake
  | runStep => exact (armed.skip fun _ _ _ => SimEvent.noConfusion).step
  | repaintTick => exact (armed.skip fun _ _ _ => SimEvent.noConfusion).repaintTick
  | cursorTick => exact (armed.skip fun _ _ _ => SimEvent.noConfusion).blinkTick
  | keyRelease code => exact (armed.skip fun _ _ _ => SimEvent.noConfusion).keyUp code

end Device

end Bench.Armed

end PocketBasic
