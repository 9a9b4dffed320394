import PocketBasic.Proofs.EventLoop.History
import PocketBasic.Proofs.Simulator.Round

/-! # What a scheduler does to its loop

A scheduler reaches its loop by the operations of the loop only, whatever is done to the round. So the clock
never goes back. The only events of sleeps that these operations bring are those whose numbers are given out
with them, so the event of a sleep is not drained before the timer that was armed for it is due.
-/

namespace PocketBasic

/-- The event that an operation brings onto the loop. -/
def EventLoop.Operation.event? {ε : Type} : EventLoop.Operation ε → Option ε
  | .post event | .singleShot _ event | .startTimer _ event => some event
  | _ => none

/-- The operation brings no event of a sleep. -/
def EventLoop.Operation.Sleepless (o : EventLoop.Operation SimEvent) : Prop :=
  ∀ generation, o.event? ≠ some (.sleepElapsed generation)

variable {σ : Type}

/-- From one bench to the next there were some operations on the loop. The events of sleeps that they have
    brought have the numbers of the sleeps that have begun meanwhile. -/
structure Bench.Operates (b other : Bench σ) : Prop where
  generation : b.scheduler.sleepGeneration ≤ other.scheduler.sleepGeneration
  loop : ∃ os, other.loop = b.loop.performAll os ∧
    ∀ o ∈ os, ∀ generation, o.event? = some (.sleepElapsed generation) →
      b.scheduler.sleepGeneration < generation ∧ generation ≤ other.scheduler.sleepGeneration

namespace Bench.Operates

variable {b c other : Bench σ}

theorem refl (b : Bench σ) : b.Operates b := ⟨Nat.le_refl _, [], rfl, nofun⟩

theorem trans (first : b.Operates c) (second : c.Operates other) : b.Operates other := by
  obtain ⟨early, xs, loop, brought⟩ := first
  obtain ⟨late, ys, loop', brought'⟩ := second
  refine ⟨early.trans late, xs ++ ys, ?_, fun o member generation event => ?_⟩
  · rw [loop', loop]
    exact (List.foldl_append ..).symm
  · rcases List.mem_append.mp member with before | after
    · obtain ⟨above, below⟩ := brought o before generation event
      exact ⟨above, below.trans late⟩
    · obtain ⟨above, below⟩ := brought' o after generation event
      exact ⟨early.trans_lt above, below⟩

/-- Nothing was done to the loop. -/
theorem same (generation : other.scheduler.sleepGeneration = b.scheduler.sleepGeneration)
    (loop : other.loop = b.loop) : b.Operates other :=
  ⟨generation.ge, [], loop, nofun⟩

/-- One operation that has nothing to do with sleeps. -/
theorem one (o : EventLoop.Operation SimEvent) (sleepless : o.Sleepless)
    (generation : other.scheduler.sleepGeneration = b.scheduler.sleepGeneration)
    (loop : other.loop = b.loop.perform o) : b.Operates other := by
  refine ⟨generation.ge, [o], loop, fun o' member generation event => ?_⟩
  obtain rfl := List.mem_singleton.mp member
  exact absurd event (sleepless generation)

theorem now_le (operates : b.Operates other) : b.loop.now ≤ other.loop.now := by
  obtain ⟨os, loop, _⟩ := operates.loop
  rw [loop, EventLoop.now_performAll]
  exact Nat.le_add_right _ _

/-! ## Operations of the scheduler -/

theorem schedule (operates : b.Operates c) : b.Operates c.schedule := by
  refine operates.trans ?_
  unfold Bench.schedule
  split
  · exact refl c
  · exact one (.post .runStep) nofun rfl rfl

theorem cancelSleep (operates : b.Operates c) : b.Operates c.cancelSleep := by
  refine operates.trans (c.cancelSleep_cases ?cancelled ?awake)
  case cancelled => exact fun id _ _ => one (.kill id) (fun _ brought => nomatch brought) rfl rfl
  case awake => exact fun _ => refl c

/-- A ticker is started. -/
theorem tick (operates : b.Operates c) (t : Ticker) (event : SimEvent)
    (sleepless : ∀ generation, event ≠ .sleepElapsed generation)
    (generation : other.scheduler.sleepGeneration = c.scheduler.sleepGeneration)
    (loop : other.loop = (t.start event c.loop).2) : b.Operates other := by
  refine operates.trans ?_
  unfold Ticker.start at loop
  split at loop
  · exact same generation loop
  · refine one (.startTimer t.interval event) (fun number brought => ?_) generation loop
    exact sleepless number (Option.some.inj brought)

/-- A ticker is stopped. -/
theorem untick (operates : b.Operates c) (t : Ticker)
    (generation : other.scheduler.sleepGeneration = c.scheduler.sleepGeneration)
    (loop : other.loop = (t.stop c.loop).2) : b.Operates other := by
  refine operates.trans ?_
  unfold Ticker.stop at loop
  split at loop
  · rename_i id _
    exact one (.kill id) nofun generation loop
  · exact same generation loop

theorem startRepaint (operates : b.Operates c) : b.Operates c.startRepaint :=
  operates.tick c.scheduler.repaint .repaintTick nofun rfl rfl

theorem stopRepaint (operates : b.Operates c) : b.Operates c.stopRepaint :=
  operates.untick c.scheduler.repaint rfl rfl

theorem startBlink (operates : b.Operates c) : b.Operates c.startBlink :=
  operates.tick c.scheduler.blink .cursorTick nofun rfl rfl

theorem pause (b : Bench σ) : b.Operates b.pause :=
  b.pause_cases (fun _ => same rfl rfl) fun _ => refl b

theorem cont (b : Bench σ) : b.Operates b.cont :=
  b.cont_cases (fun _ _ => schedule (same rfl rfl)) fun _ => refl b

theorem wake (b : Bench σ) (generation : Nat) : b.Operates (b.wake generation) :=
  b.wake_cases generation (fun _ _ _ _ => schedule (same rfl rfl)) (fun _ _ _ => same rfl rfl) fun _ => refl b

/-- A sleep that begins has the next number, and so has the event that is to end it. -/
theorem sleep (b : Bench σ) (nanoseconds : UInt64) : b.Operates (b.sleep nanoseconds) := by
  refine b.sleep_cases nanoseconds ?armed ?fresh
  case armed => exact fun _ _ => refl b
  case fresh =>
    intro delay _
    refine ⟨Nat.le_succ _, [.singleShot delay (.sleepElapsed (b.scheduler.sleepGeneration + 1))], rfl, ?_⟩
    intro o member generation event
    obtain rfl := List.mem_singleton.mp member
    obtain rfl := SimEvent.sleepElapsed.inj (Option.some.inj event)
    exact ⟨Nat.lt_succ_self _, Nat.le_refl _⟩

theorem runBatch [Engine σ] (operates : b.Operates c) (resume : Resume) : b.Operates (c.runBatch resume) := by
  rw [runBatch_eq]
  exact schedule (operates.trans (same rfl rfl))

theorem provide [Engine σ] (b : Bench σ) (values : List Answer) : b.Operates (b.provide values) :=
  b.provide_cases values (fun _ => schedule (same rfl rfl)) fun _ => same rfl rfl

variable [Device σ]

theorem stopBlink (operates : b.Operates c) : b.Operates c.stopBlink :=
  operates.untick c.scheduler.blink (by rw [scheduler_stopBlink]) c.loop_stopBlink

theorem keyDown (b : Bench σ) (key : UInt8) : b.Operates (b.keyDown key) :=
  b.keyDown_cases key (fun _ _ _ => schedule (same rfl rfl)) fun _ => same rfl rfl

variable [Engine σ]

theorem start (b : Bench σ) : b.Operates b.start := by
  have reset : b.Operates { b with rig := Engine.reset b.rig } := same rfl rfl
  rw [start_eq]
  refine schedule (startRepaint (trans (cancelSleep ?restarted) (same rfl rfl)))
  exact reset.stopBlink.trans (same rfl rfl)

theorem stop (b : Bench σ) : b.Operates b.stop.2 := by
  have quietened : b.Operates b.quietened :=
    (refl b).cancelSleep.stopRepaint.stopBlink.trans (same rfl rfl)
  rw [stop_eq]
  exact quietened.trans (same rfl rfl)

theorem proceed (b : Bench σ) : b.Operates b.proceed.2 := by
  have kept (rig : σ) : b.Operates { b with rig } := same rfl rfl
  refine b.proceed_cases ?done ?more ?sleep ?keyless ?keyed ?asked ?prompting ?answered ?failed
  case done => exact fun _ => refl b
  case more => exact fun _ => (refl b).runBatch .nothing
  case sleep => exact fun nanoseconds _ => sleep b nanoseconds
  case keyless => exact fun rig _ _ => (kept rig).startBlink
  case keyed => exact fun key rig _ _ => (kept rig).stopBlink.runBatch (.key key)
  case asked => exact fun _ _ _ => (refl b).startBlink.trans (same rfl rfl)
  case prompting => exact fun _ _ _ => refl b
  case answered =>
    intro _ values _ _
    have idle : b.Operates { b with scheduler.inputState := .idle } := same rfl rfl
    exact idle.stopBlink.runBatch (.answers values)
  case failed => exact fun _ _ => same rfl rfl

theorem handle (b : Bench σ) (event : SimEvent) : b.Operates (b.handle event) := by
  cases event with
  | runStep =>
      rw [Bench.handle]
      have taken : b.Operates b.taken := same rfl rfl
      exact b.step_cases (fun _ _ => taken.trans (proceed b.taken)) fun _ => taken
  | sleepElapsed generation => exact wake b generation
  | repaintTick => exact same (by rw [Bench.handle, scheduler_repaintTick]) b.loop_repaintTick
  | cursorTick => exact same (by rw [Bench.handle, scheduler_blinkTick]) b.loop_blinkTick
  | keyRelease code => exact same rfl rfl

end Bench.Operates

theorem Round.operates_move [Engine σ] [Device σ] (r : Round σ) (m : Move) :
    r.bench.Operates (r.move m).bench := by
  cases m with
  | pause => exact .pause r.bench
  | cont => exact .cont r.bench
  | press key => exact .keyDown r.bench key
  | lift key => exact .same rfl rfl
  | liftLater delay key => exact .one (.singleShot delay (.keyRelease key)) nofun rfl rfl
  | provide values => exact .provide r.bench values
  | advance ms => exact .one (.advance ms) nofun rfl rfl
  | drain => exact .one .drain nofun rfl rfl
  | next => exact r.bench_next_cases (.refl r.bench) (.handle r.bench)
  | stray event => exact .handle r.bench event

/-- Whatever is done to a round, its loop takes some operations. -/
theorem Round.operates_act [Engine σ] [Device σ] (r : Round σ) (a : Act) :
    r.bench.Operates (r.act a).bench := by
  cases a with
  | start => exact .start r.bench
  | stop => exact .stop r.bench
  | move m => exact r.operates_move m

/-! ## Events that come later -/

namespace EventLoop

variable {ε : Type} {l : EventLoop ε} {event : ε} {deadline : Nat}

/-- What an operation leaves of a timer carries the same event and is due no earlier. -/
theorem later_of_next {now : Nat} {t u : Timer ε} {o : Operation ε} (left : t.next now o = some u) :
    u.event = t.event ∧ t.deadline ≤ u.deadline := by
  have kept (same : some t = some u) : u.event = t.event ∧ t.deadline ≤ u.deadline := by
    obtain rfl := Option.some.inj same
    exact ⟨rfl, Nat.le_refl _⟩
  cases o with
  | kill id =>
      simp only [Timer.next] at left
      split at left
      · cases left
      · exact kept left
  | clear => cases left
  | drain =>
      simp only [Timer.next, afterDrain] at left
      split at left
      · rename_i due
        have due : t.deadline ≤ now := of_decide_eq_true due
        simp only [Timer.rearm, Option.map_eq_some_iff] at left
        obtain ⟨interval, _, rfl⟩ := left
        refine ⟨rfl, ?_⟩
        dsimp only
        split <;> omega
      · exact kept left
  | post | singleShot | startTimer | advance => exact kept left

theorem Operation.event_of_timer? {now : Nat} {id : TimerId} {o : Operation ε} {t : Timer ε}
    (armed : o.timer? now id = some t) : o.event? = some t.event := by
  cases o with
  | singleShot | startTimer =>
      obtain rfl := Option.some.inj armed
      rfl
  | post | kill | clear | advance | drain => cases armed

theorem Operation.event_of_posted? {o : Operation ε} (posted : o.posted? = some event) :
    o.event? = some event := by
  cases o with
  | post => exact posted
  | singleShot | startTimer | kill | clear | advance | drain => cases posted

/-- An event does not come before a time: it is not posted, and no timer that carries it is due earlier. -/
structure Withholds (l : EventLoop ε) (event : ε) (deadline : Nat) : Prop where
  timers : ∀ t ∈ l.timers, t.event = event → deadline ≤ t.deadline
  unposted : event ∉ l.posted

namespace Withholds

theorem perform (withheld : l.Withholds event deadline) {o : Operation ε} (other : o.event? ≠ some event) :
    (l.perform o).Withholds event deadline := by
  refine ⟨fun t member same => ?_, ?_⟩
  · rw [timers_perform] at member
    rcases List.mem_append.mp member with kept | new
    · obtain ⟨old, inside, left⟩ := List.mem_filterMap.mp kept
      obtain ⟨carried, later⟩ := later_of_next left
      exact (withheld.timers old inside (carried.symm.trans same)).trans later
    · have armed := Operation.event_of_timer? (Option.mem_toList.mp new)
      exact absurd (armed.trans (congrArg some same)) other
  · rw [posted_perform]
    split
    · exact List.not_mem_nil
    · intro member
      rcases List.mem_append.mp member with old | new
      · exact withheld.unposted old
      · exact other (Operation.event_of_posted? (Option.mem_toList.mp new))

theorem performAll (withheld : l.Withholds event deadline) {os : List (Operation ε)}
    (other : ∀ o ∈ os, o.event? ≠ some event) : (l.performAll os).Withholds event deadline := by
  induction os generalizing l with
  | nil => exact withheld
  | cons o rest ih =>
      rw [List.forall_mem_cons] at other
      exact ih (withheld.perform other.1) other.2

theorem le_now_of_drain (withheld : l.Withholds event deadline) (drained : event ∈ l.drain.1) :
    deadline ≤ l.now := by
  rcases l.mem_drain.mp drained with ⟨t, member, due, same⟩ | posted
  · exact (withheld.timers t member same).trans (of_decide_eq_true due)
  · exact absurd posted withheld.unposted

end Withholds

end EventLoop

namespace Round

/-- The event of the sleep of a number is not drained before a time. -/
structure Withholds (r : Round σ) (generation deadline : Nat) : Prop where
  loop : r.bench.loop.Withholds (.sleepElapsed generation) deadline
  batch : .sleepElapsed generation ∈ r.batch → deadline ≤ r.bench.loop.now

/-- No sleep has had a number that is still to be given out. -/
def Unslept (r : Round σ) : Prop :=
  ∀ generation, r.bench.scheduler.sleepGeneration < generation → ∀ deadline, r.Withholds generation deadline

theorem Unslept.fresh (settings : SimulatorSettings) (rig : σ) : (Round.fresh settings rig).Unslept :=
  fun _ _ _ => ⟨⟨nofun, List.not_mem_nil⟩, nofun⟩

variable [Engine σ] [Device σ] {r : Round σ} {generation deadline : Nat} {event : SimEvent}

theorem mem_batch_act {a : Act} (member : event ∈ (r.act a).batch) :
    event ∈ r.batch ∨ event ∈ r.bench.loop.drain.1 := by
  cases a with
  | start | stop => exact .inl member
  | move m =>
      cases m with
      | drain => exact List.mem_append.mp member
      | next =>
          obtain ⟨b, batch⟩ := r
          cases batch with
          | nil => exact .inl member
          | cons first rest => exact .inl (List.mem_cons_of_mem first member)
      | pause | cont | press | lift | liftLater | provide | advance | stray => exact .inl member

/-- The number of the sleep is given out already, or will be later. -/
theorem Withholds.act (withheld : r.Withholds generation deadline) (a : Act)
    (given : generation ≤ r.bench.scheduler.sleepGeneration ∨
      (r.act a).bench.scheduler.sleepGeneration < generation) :
    (r.act a).Withholds generation deadline := by
  have operates := r.operates_act a
  refine ⟨?_, fun member => ?_⟩
  · obtain ⟨os, loop, brought⟩ := operates.loop
    rw [loop]
    refine withheld.loop.performAll fun o member event => ?_
    have between := brought o member generation event
    omega
  · refine Nat.le_trans ?_ operates.now_le
    exact (mem_batch_act member).elim withheld.batch withheld.loop.le_now_of_drain

theorem Unslept.act (unslept : r.Unslept) (a : Act) : (r.act a).Unslept := by
  intro generation above deadline
  have before := (r.operates_act a).generation.trans_lt above
  exact (unslept generation before deadline).act a (.inr above)

end Round

end PocketBasic
