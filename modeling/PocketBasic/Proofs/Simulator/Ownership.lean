import PocketBasic.Proofs.EventLoop.Holders
import PocketBasic.Proofs.Simulator.Sampling

/-! # The timers of the scheduler

The scheduler keeps the names of three timers: one samples the dirty area, one blinks the caret and one
ends the sleep under way. No other timer is armed for these events. Only the timer of a sleep goes away
by itself, and then its event is in the batch that was drained and is not handled yet; the number of a
sleep tells it from the event of any sleep before.
-/

namespace PocketBasic

namespace SimEvent

def isSleep : SimEvent → Bool
  | .sleepElapsed _ => true
  | _ => false

/-- The event belongs to none of the timers that the scheduler keeps. -/
def isUnkept : SimEvent → Bool
  | .repaintTick | .cursorTick | .sleepElapsed _ => false
  | _ => true

end SimEvent

variable {σ : Type}

/-- What the scheduler and the loop keep of timers, with the steps that are posted. -/
def Bench.timing (b : Bench σ) :
    (Ticker × Ticker × Option (TimerId × Nat) × Nat) × List (Timer SimEvent) × TimerId × List SimEvent :=
  ((b.scheduler.repaint, b.scheduler.blink, b.scheduler.sleep, b.scheduler.sleepGeneration),
    b.loop.timers, b.loop.nextId, b.loop.posted)

/-- The timer of the sleep under way is armed, or it has fired and its event is not handled yet. -/
structure Bench.Sleeps (batch : List SimEvent) (b : Bench σ) : Prop where
  awake : b.scheduler.sleep = none → b.loop.timersOf SimEvent.isSleep = []
  asleep : ∀ id generation, b.scheduler.sleep = some (id, generation) →
    b.loop.Names id (.sleepElapsed generation) ∧ generation ≤ b.scheduler.sleepGeneration ∧
      (b.loop.timersOf SimEvent.isSleep = [(id, none, .sleepElapsed generation)] ∧
          .sleepElapsed generation ∉ batch ∨
        b.loop.timersOf SimEvent.isSleep = [] ∧ .sleepElapsed generation ∈ batch)
  drained : ∀ generation, .sleepElapsed generation ∈ batch →
    generation ≤ b.scheduler.sleepGeneration

/-- The scheduler and the loop agree on every timer. -/
structure Bench.Owned (batch : List SimEvent) (b : Bench σ) : Prop extends b.Armed batch where
  posted : ∀ event ∈ b.loop.posted, event = .runStep
  repaints : b.scheduler.repaint.Holds .repaintTick b.loop
  blinks : b.scheduler.blink.Holds .cursorTick b.loop
  sleeps : b.Sleeps batch
  releases : ∀ tag ∈ b.loop.timersOf SimEvent.isUnkept, ∃ code, tag.2 = (none, .keyRelease code)

namespace Bench.Sleeps

variable {b other : Bench σ} {batch : List SimEvent}

/-- Only the sleep, its number and the timers of sleeps count. -/
theorem of_same (sleeps : b.Sleeps batch) (grows : b.loop.Grows other.loop)
    (sleep : other.scheduler.sleep = b.scheduler.sleep)
    (generation : other.scheduler.sleepGeneration = b.scheduler.sleepGeneration)
    (timers : other.loop.timersOf SimEvent.isSleep = b.loop.timersOf SimEvent.isSleep) :
    other.Sleeps batch := by
  constructor <;> simp only [sleep, generation, timers]
  · exact sleeps.awake
  · intro id number asleep
    obtain ⟨names, rest⟩ := sleeps.asleep id number asleep
    exact ⟨names.grows grows, rest⟩
  · exact sleeps.drained

/-- An event that is no event of a sleep is handled without the sleep. -/
theorem skip {event : SimEvent} (sleeps : b.Sleeps (event :: batch))
    (other : event.isSleep = false) : b.Sleeps batch := by
  have same (generation : Nat) :
      .sleepElapsed generation ∈ event :: batch ↔ .sleepElapsed generation ∈ batch := by
    refine ⟨fun member => ?_, List.mem_cons_of_mem _⟩
    rcases List.mem_cons.mp member with rfl | later
    · cases other
    · exact later
  refine ⟨sleeps.awake, fun id generation asleep => ?_, fun generation member => ?_⟩
  · simpa only [same] using sleeps.asleep id generation asleep
  · exact sleeps.drained generation ((same generation).mpr member)

/-- The timer of a sleep that is called off goes with it. -/
theorem cancelSleep (sleeps : b.Sleeps batch) : b.cancelSleep.Sleeps batch := by
  refine b.cancelSleep_cases ?cancelled ?awake
  case cancelled =>
    intro id generation asleep
    refine ⟨fun _ => ?_, (fun _ _ still => by cases still), sleeps.drained⟩
    obtain ⟨names, _, ⟨armed, _⟩ | ⟨fired, _⟩⟩ := sleeps.asleep id generation asleep
    · exact EventLoop.timersOf_kill_self armed
    · refine List.eq_nil_iff_forall_not_mem.mpr fun tag member => ?_
      obtain ⟨t, inside, matching⟩ := EventLoop.mem_timersOf.mp member
      have left := (b.loop.mem_timers_kill.mp inside).1
      exact List.eq_nil_iff_forall_not_mem.mp fired tag
        (EventLoop.mem_timersOf.mpr ⟨t, left, matching⟩)
  case awake => exact fun _ => sleeps

/-- The event of the sleep under way ends it; its timer has fired. The event of a sleep before means
    nothing. -/
theorem awoken {generation : Nat} (sleeps : b.Sleeps (.sleepElapsed generation :: batch)) {id : TimerId}
    (asleep : b.scheduler.sleep = some (id, generation)) :
    { b with scheduler.sleep := none, scheduler.last := .more }.Sleeps batch := by
  refine ⟨fun _ => ?_, (fun _ _ still => by cases still), fun number member => ?_⟩
  · obtain ⟨_, _, ⟨_, absent⟩ | ⟨fired, _⟩⟩ := sleeps.asleep id generation asleep
    · exact absurd List.mem_cons_self absent
    · exact fired
  · exact sleeps.drained number (List.mem_cons_of_mem _ member)

theorem stale {generation : Nat} (sleeps : b.Sleeps (.sleepElapsed generation :: batch))
    (other : ∀ id, b.scheduler.sleep ≠ some (id, generation)) : b.Sleeps batch := by
  refine ⟨sleeps.awake, fun id number asleep => ?_, fun number member => ?_⟩
  · have different : number ≠ generation := fun same => other id (same ▸ asleep)
    have same : .sleepElapsed number ∈ SimEvent.sleepElapsed generation :: batch ↔
        .sleepElapsed number ∈ batch := by simp [different]
    simpa only [same] using sleeps.asleep id number asleep
  · exact sleeps.drained number (List.mem_cons_of_mem _ member)

/-- A new sleep has a number above that of every event in the batch. -/
theorem sleep (sleeps : b.Sleeps batch) (numbered : b.loop.Numbered) (nanoseconds : UInt64) :
    (b.sleep nanoseconds).Sleeps batch := by
  refine b.sleep_cases nanoseconds ?armed ?fresh
  case armed => exact fun _ _ => sleeps
  case fresh =>
    intro delay awake
    refine ⟨fun none => (by cases none), fun id number asleep => ?_, fun number member => ?_⟩
    · obtain ⟨rfl, rfl⟩ := Prod.mk.inj (Option.some.inj asleep)
      refine ⟨EventLoop.names_addTimer numbered _ _ _, Nat.le_refl _, .inl ⟨?_, fun member => ?_⟩⟩
      · refine (b.loop.timersOf_addTimer _ _ _ _).trans ?_
        rw [sleeps.awake awake]
        rfl
      · exact Nat.not_succ_le_self _ (sleeps.drained _ member)
    · exact Nat.le_succ_of_le (sleeps.drained number member)

/-- The timer of the sleep is the only one that a drain may hand over for good. -/
theorem drain (sleeps : b.Sleeps []) (posted : ∀ event ∈ b.loop.posted, event = .runStep) :
    { b with loop := b.loop.drain.2 }.Sleeps b.loop.drain.1 := by
  have unposted (generation : Nat) : .sleepElapsed generation ∉ b.loop.posted :=
    fun member => by cases posted _ member
  have armed (id : TimerId) (generation : Nat)
      (asleep : b.scheduler.sleep = some (id, generation)) :
      b.loop.timersOf SimEvent.isSleep = [(id, none, .sleepElapsed generation)] := by
    obtain ⟨_, _, ⟨armed, _⟩ | ⟨_, member⟩⟩ := sleeps.asleep id generation asleep
    · exact armed
    · cases member
  refine ⟨fun awake => ?_, fun id generation asleep => ?_, fun generation member => ?_⟩
  · refine List.eq_nil_iff_forall_not_mem.mpr fun tag member => ?_
    exact List.eq_nil_iff_forall_not_mem.mp (sleeps.awake awake) tag
      (EventLoop.mem_timersOf_of_drain member)
  · obtain ⟨names, bounded, _⟩ := sleeps.asleep id generation asleep
    exact ⟨names.grows b.loop.grows_drain, bounded,
      EventLoop.timersOf_drain_once (armed id generation asleep) (unposted generation)⟩
  · obtain ⟨t, inside, _, same⟩ := (b.loop.mem_drain.mp member).resolve_right (unposted generation)
    have tag : (t.id, t.interval, t.event) ∈ b.loop.timersOf SimEvent.isSleep :=
      EventLoop.mem_timersOf.mpr ⟨t, inside, by rw [same]; rfl, rfl⟩
    cases asleep : b.scheduler.sleep with
    | none =>
        rw [sleeps.awake asleep] at tag
        cases tag
    | some timer =>
        obtain ⟨id, number⟩ := timer
        rw [armed id number asleep, List.mem_singleton, same] at tag
        simp only [Prod.mk.injEq, SimEvent.sleepElapsed.injEq] at tag
        rw [tag.2.2]
        exact (sleeps.asleep id number asleep).2.1

end Bench.Sleeps

namespace Bench.Owned

variable {b other : Bench σ} {batch : List SimEvent}

theorem fresh (settings : SimulatorSettings) (rig : σ) {loop : EventLoop SimEvent}
    (posted : loop.posted = []) (timers : loop.timers = []) :
    (⟨.ofSettings settings, rig, loop⟩ : Bench σ).Owned [] := by
  have none (p : SimEvent → Bool) : loop.timersOf p = [] := by rw [EventLoop.timersOf, timers]; rfl
  refine ⟨.fresh settings rig timers, ?_, none _, none _, ⟨fun _ => none _, ?_, ?_⟩, ?_⟩
  · simp [posted]
  · exact fun _ _ asleep => by cases asleep
  · exact fun _ member => by cases member
  · simp [none]

/-- Only the tickers, the sleep and the loop count, and of the loop not the steps that are posted. -/
theorem of_same (owned : b.Owned batch) (repaint : other.scheduler.repaint = b.scheduler.repaint)
    (blink : other.scheduler.blink = b.scheduler.blink)
    (sleep : other.scheduler.sleep = b.scheduler.sleep)
    (generation : other.scheduler.sleepGeneration = b.scheduler.sleepGeneration)
    (timers : other.loop.timers = b.loop.timers) (nextId : other.loop.nextId = b.loop.nextId)
    (posted : ∀ event ∈ other.loop.posted, event ∈ b.loop.posted ∨ event = .runStep) :
    other.Owned batch := by
  have same (p : SimEvent → Bool) : other.loop.timersOf p = b.loop.timersOf p := by
    rw [EventLoop.timersOf, timers, EventLoop.timersOf]
  refine ⟨owned.toArmed.of_same repaint blink sleep timers nextId, ?_, ?_, ?_, ?_, ?_⟩
  · intro event member
    rcases posted event member with old | new
    · exact owned.posted event old
    · exact new
  · rw [repaint]
    exact (same _).trans owned.repaints
  · rw [blink]
    exact (same _).trans owned.blinks
  · exact owned.sleeps.of_same (.of_subset nextId fun _ member => timers ▸ member) sleep generation
      (same _)
  · rw [same]
    exact owned.releases

/-- Most of what goes on has nothing to do with timers. -/
theorem of_timing (owned : b.Owned batch) (same : other.timing = b.timing) : other.Owned batch := by
  simp only [timing, Prod.mk.injEq] at same
  obtain ⟨⟨repaint, blink, sleep, generation⟩, timers, nextId, posted⟩ := same
  exact owned.of_same repaint blink sleep generation timers nextId fun event member =>
    .inl (posted ▸ member)

theorem withRig (owned : b.Owned batch) (rig : σ) : { b with rig }.Owned batch :=
  owned.of_timing rfl

/-- A timer of one event comes or goes, and those of the other events stay. -/
theorem moved (owned : b.Owned batch) (armed : other.Armed batch)
    (posted : other.loop.posted = b.loop.posted)
    (repaints : other.scheduler.repaint.Holds .repaintTick other.loop)
    (blinks : other.scheduler.blink.Holds .cursorTick other.loop) (sleeps : other.Sleeps batch)
    (unkept : other.loop.timersOf SimEvent.isUnkept = b.loop.timersOf SimEvent.isUnkept) :
    other.Owned batch := by
  refine ⟨armed, ?_, repaints, blinks, sleeps, ?_⟩
  · rw [posted]
    exact owned.posted
  · rw [unkept]
    exact owned.releases

/-! ### The loop -/

theorem skip {event : SimEvent} (owned : b.Owned (event :: batch)) (other : event.isSleep = false) :
    b.Owned batch := by
  refine ⟨owned.toArmed.skip ?_, owned.posted, owned.repaints, owned.blinks,
    owned.sleeps.skip other, owned.releases⟩
  rintro _ _ _ rfl
  cases other

theorem drain (owned : b.Owned []) : { b with loop := b.loop.drain.2 }.Owned b.loop.drain.1 := by
  refine ⟨owned.toArmed.drain, ?_, owned.repaints.drain, owned.blinks.drain,
    owned.sleeps.drain owned.posted, ?_⟩
  · exact fun event member => by cases member
  · exact fun tag member => owned.releases tag (EventLoop.mem_timersOf_of_drain member)

theorem advance (owned : b.Owned batch) (ms : Nat) :
    { b with loop := b.loop.advance ms }.Owned batch :=
  owned.of_timing rfl

/-- The timer that releases a key is kept by nobody. -/
theorem releaseLater (owned : b.Owned batch) (delay : Nat) (code : UInt8) :
    { b with loop := (b.loop.singleShot delay (.keyRelease code)).2 }.Owned batch := by
  have other {p : SimEvent → Bool} (other : p (.keyRelease code) = false) :
      (b.loop.singleShot delay (.keyRelease code)).2.timersOf p = b.loop.timersOf p :=
    (b.loop.timersOf_addTimer p _ _ _).trans (by simp [other])
  refine ⟨owned.toArmed.singleShot _ _, owned.posted, (other rfl).trans owned.repaints,
    (other rfl).trans owned.blinks, ?_, fun tag member => ?_⟩
  · exact owned.sleeps.of_same (b.loop.grows_addTimer _ _ _) rfl rfl (other rfl)
  · rw [EventLoop.singleShot, EventLoop.timersOf_addTimer, List.mem_append] at member
    rcases member with old | new
    · exact owned.releases tag old
    · obtain rfl := List.mem_singleton.mp new
      exact ⟨code, rfl⟩

/-! ### Operations -/

theorem schedule (owned : b.Owned batch) : b.schedule.Owned batch := by
  refine owned.of_same ?_ ?_ ?_ ?_ b.timers_schedule b.nextId_schedule fun event member => ?_
  · rw [scheduler_schedule]
  · rw [scheduler_schedule]
  · rw [scheduler_schedule]
  · rw [scheduler_schedule]
  · rw [posted_schedule, List.mem_append] at member
    refine member.imp_right fun new => ?_
    split at new
    · cases new
    · exact List.mem_singleton.mp new

theorem cancelSleep (owned : b.Owned batch) : b.cancelSleep.Owned batch := by
  have armed := owned.toArmed.cancelSleep
  have sleeps := owned.sleeps.cancelSleep
  revert armed sleeps
  refine b.cancelSleep_cases ?cancelled ?awake
  case cancelled =>
    intro id generation asleep armed sleeps
    have names := (owned.sleeps.asleep id generation asleep).1
    exact owned.moved armed rfl ((EventLoop.timersOf_kill_other names rfl).trans owned.repaints)
      ((EventLoop.timersOf_kill_other names rfl).trans owned.blinks) sleeps
      (EventLoop.timersOf_kill_other names rfl)
  case awake => exact fun _ _ _ => owned

theorem startRepaint (owned : b.Owned batch) : b.startRepaint.Owned batch :=
  owned.moved owned.toArmed.startRepaint (Ticker.posted_start _ _ _) owned.repaints.start
    ((Ticker.timersOf_start _ _ rfl).trans owned.blinks)
    (owned.sleeps.of_same (Ticker.grows_start _ _ _) rfl rfl (Ticker.timersOf_start _ _ rfl))
    (Ticker.timersOf_start _ _ rfl)

theorem startBlink (owned : b.Owned batch) : b.startBlink.Owned batch :=
  owned.moved owned.toArmed.startBlink (Ticker.posted_start _ _ _)
    ((Ticker.timersOf_start _ _ rfl).trans owned.repaints) owned.blinks.start
    (owned.sleeps.of_same (Ticker.grows_start _ _ _) rfl rfl (Ticker.timersOf_start _ _ rfl))
    (Ticker.timersOf_start _ _ rfl)

theorem stopRepaint (owned : b.Owned batch) : b.stopRepaint.Owned batch :=
  owned.moved owned.toArmed.stopRepaint (Ticker.posted_stop _ _) owned.repaints.stop
    ((Ticker.timersOf_stop owned.repaint rfl).trans owned.blinks)
    (owned.sleeps.of_same (Ticker.grows_stop _ _) rfl rfl (Ticker.timersOf_stop owned.repaint rfl))
    (Ticker.timersOf_stop owned.repaint rfl)

theorem stopBlink [Device σ] (owned : b.Owned batch) : b.stopBlink.Owned batch := by
  have armed := owned.toArmed.stopBlink
  have other {p : SimEvent → Bool} (other : p .cursorTick = false) :
      b.stopBlink.loop.timersOf p = b.loop.timersOf p := by
    rw [loop_stopBlink]
    exact Ticker.timersOf_stop owned.blink other
  refine owned.moved armed ?_ ?_ ?_ ?_ (other rfl)
  · rw [loop_stopBlink, Ticker.posted_stop]
  · rw [scheduler_stopBlink]
    exact (other rfl).trans owned.repaints
  · rw [scheduler_stopBlink, loop_stopBlink]
    exact owned.blinks.stop
  · refine owned.sleeps.of_same ?_ ?_ ?_ (other rfl)
    · rw [loop_stopBlink]
      exact Ticker.grows_stop _ _
    · rw [scheduler_stopBlink]
    · rw [scheduler_stopBlink]

theorem sleep (owned : b.Owned batch) (nanoseconds : UInt64) : (b.sleep nanoseconds).Owned batch := by
  have armed := owned.toArmed.sleep nanoseconds
  have sleeps := owned.sleeps.sleep owned.numbered nanoseconds
  revert armed sleeps
  refine b.sleep_cases nanoseconds ?armed ?fresh
  case armed => exact fun _ _ _ _ => owned
  case fresh =>
    intro delay awake armed sleeps
    have other {p : SimEvent → Bool}
        (other : p (.sleepElapsed (b.scheduler.sleepGeneration + 1)) = false) :
        (b.loop.singleShot delay (.sleepElapsed (b.scheduler.sleepGeneration + 1))).2.timersOf p =
          b.loop.timersOf p :=
      (b.loop.timersOf_addTimer p _ _ _).trans (by simp [other])
    exact owned.moved armed rfl ((other rfl).trans owned.repaints) ((other rfl).trans owned.blinks)
      sleeps (other rfl)

theorem pause (owned : b.Owned batch) : b.pause.Owned batch := by
  refine b.pause_cases ?paused ?ignored
  case paused => exact fun _ => owned.of_timing rfl
  case ignored => exact fun _ => owned

theorem cont (owned : b.Owned batch) : b.cont.Owned batch := by
  refine b.cont_cases ?continued ?ignored
  case continued =>
    exact fun _ _ => schedule (owned.of_timing rfl)
  case ignored => exact fun _ => owned

theorem wake {generation : Nat} (owned : b.Owned (.sleepElapsed generation :: batch)) :
    (b.wake generation).Owned batch := by
  have armed := owned.toArmed.wake
  have awoken {id : TimerId} (asleep : b.scheduler.sleep = some (id, generation)) :
      { b with scheduler.sleep := none, scheduler.last := .more }.Owned batch := by
    have sleeps := owned.sleeps.awoken asleep
    have armed := owned.toArmed
    refine ⟨⟨armed.numbered, armed.repaint, armed.blink, fun _ _ still => by cases still⟩,
      owned.posted, owned.repaints, owned.blinks, sleeps, owned.releases⟩
  revert armed
  refine b.wake_cases generation ?woken ?held ?stale
  case woken => exact fun id asleep _ _ _ => schedule (awoken asleep)
  case held => exact fun id asleep _ _ => awoken asleep
  case stale =>
    exact fun other armed => ⟨armed, owned.posted, owned.repaints, owned.blinks,
      owned.sleeps.stale other, owned.releases⟩

section Engine

variable [Engine σ]

theorem runBatch (owned : b.Owned batch) (resume : Resume) : (b.runBatch resume).Owned batch := by
  rw [runBatch_eq]
  exact schedule (owned.of_timing rfl)

theorem provide (owned : b.Owned batch) (values : List Answer) : (b.provide values).Owned batch := by
  refine b.provide_cases values ?accepted ?refused
  case accepted =>
    exact fun _ => schedule (owned.of_timing rfl)
  case refused => exact fun _ => owned.withRig _

end Engine

section Device

variable [Device σ]

theorem keyDown (owned : b.Owned batch) (key : UInt8) : (b.keyDown key).Owned batch := by
  refine b.keyDown_cases key ?resumed ?buffered
  case resumed => exact fun _ _ _ => schedule (owned.withRig _)
  case buffered => exact fun _ => owned.withRig _

variable [Engine σ]

theorem start (owned : b.Owned batch) : b.start.Owned batch := by
  have quiet := ((owned.withRig (Engine.reset b.rig)).stopBlink.withRig
    (Device.restart { b with rig := Engine.reset b.rig }.stopBlink.rig)).cancelSleep
  exact schedule (startRepaint (quiet.of_timing rfl))

theorem stop (owned : b.Owned batch) : b.stop.2.Owned batch := by
  have quiet := (owned.cancelSleep.stopRepaint.stopBlink).withRig b.quietened.rig
  rw [stop_eq]
  exact quiet.of_timing rfl

theorem proceed (owned : b.Owned batch) : b.proceed.2.Owned batch := by
  refine b.proceed_cases ?done ?more ?sleep ?keyless ?keyed ?asked ?prompting ?answered ?failed
  case done => exact fun _ => owned
  case more => exact fun _ => owned.runBatch _
  case sleep => exact fun nanoseconds _ => owned.sleep nanoseconds
  case keyless => exact fun rig _ _ => (owned.withRig rig).startBlink
  case keyed => exact fun key rig _ _ => (owned.withRig rig).stopBlink.runBatch _
  case asked =>
    exact fun _ _ _ => owned.startBlink.of_timing rfl
  case prompting => exact fun _ _ _ => owned
  case answered =>
    intro _ values _ _
    have taken : { b with scheduler.inputState := .idle }.Owned batch :=
      owned.of_timing rfl
    exact taken.stopBlink.runBatch _
  case failed => exact fun _ _ => owned.of_timing rfl

theorem step (owned : b.Owned batch) : b.step.2.Owned batch := by
  have taken : b.taken.Owned batch := owned.of_timing rfl
  refine b.step_cases ?active ?halted
  case active => exact fun _ _ => taken.proceed
  case halted => exact fun _ => taken

theorem handle {event : SimEvent} (owned : b.Owned (event :: batch)) : (b.handle event).Owned batch := by
  cases event with
  | runStep => exact (owned.skip rfl).step
  | sleepElapsed generation => exact owned.wake
  | repaintTick =>
      exact (owned.skip rfl).of_timing (by simp only [Bench.handle, timing, scheduler_repaintTick,
        loop_repaintTick])
  | cursorTick =>
      exact (owned.skip rfl).of_timing (by simp only [Bench.handle, timing, scheduler_blinkTick,
        loop_blinkTick])
  | keyRelease code => exact (owned.skip rfl).withRig _

end Device

end Bench.Owned

end PocketBasic
