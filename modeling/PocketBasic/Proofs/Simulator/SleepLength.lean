import Mathlib.Algebra.Group.Nat.Defs
import PocketBasic.Proofs.Simulator.History
import PocketBasic.Proofs.Simulator.OnLoop
import PocketBasic.Proofs.Simulator.Vigil

/-! # How long a program sleeps

A batch ends with a sleep of some nanoseconds, and the next step arms a timer for it. No batch of the run is
executed before that timer is due, whatever else the loop delivers. The timer is due after the milliseconds of
the sleep, unless its nanoseconds are so many that they do not fit into a word with the half that rounds them;
then the program is broken off.
-/

namespace PocketBasic

namespace Scheduler

/-- The milliseconds are those nearest to the nanoseconds, the later ones if two are. -/
theorem roundToMs_nearest (nanoseconds : UInt64) :
    nanoseconds.toNat < roundToMs nanoseconds * 1000000 + 500000 ∧
      roundToMs nanoseconds * 1000000 ≤ nanoseconds.toNat + 500000 := by
  unfold roundToMs
  omega

end Scheduler

variable {σ : Type}

namespace Round

/-- An event that nobody has made up was drained. -/
theorem mem_batch_of_handled {r : Round (Journal σ)} {a : Act} {event : SimEvent}
    (handled : r.handledBy a = some event) (genuine : a ≠ .move (.stray event)) :
    event ∈ r.batch := by
  cases a with
  | start | stop => cases handled
  | move m =>
      cases m with
      | next => exact List.mem_of_mem_head? handled
      | stray other =>
          obtain rfl := Option.some.inj handled
          exact absurd rfl genuine
      | pause | cont | press | lift | liftLater | provide | advance | drain => cases handled

variable [Engine σ] [Device σ]

theorem setup_move (r : Round σ) (m : Move) :
    (r.move m).bench.scheduler.setup = r.bench.scheduler.setup := by
  cases m with
  | pause => exact r.bench.setup_pause
  | cont => exact r.bench.setup_cont
  | press key => exact r.bench.setup_keyDown key
  | provide values => exact r.bench.setup_provide values
  | lift | liftLater | advance | drain => rfl
  | next => exact r.bench_next_cases rfl r.bench.setup_handle
  | stray event => exact r.bench.setup_handle event

theorem setup_act (r : Round σ) (a : Act) :
    (r.act a).bench.scheduler.setup = r.bench.scheduler.setup := by
  cases a with
  | start => exact r.bench.setup_start
  | stop => exact r.bench.setup_stop
  | move m => exact r.setup_move m

theorem setup_acts (r : Round σ) (as : List Act) :
    (r.acts as).bench.scheduler.setup = r.bench.scheduler.setup := by
  induction as generalizing r with
  | nil => rfl
  | cons a rest ih => exact (ih (r.act a)).trans (r.setup_act a)

end Round

/-! ## Before the next batch -/

namespace SleepNote

variable {newer older notes : List SleepNote} {id : TimerId} {generation : Nat} {resume : Resume}
  {outcome : Outcome}

/-- After a timer was armed nothing but a stop is noted in the run until the end of the sleep has taken
    effect. -/
theorem Orderly.since_armed (orderly : Orderly (newer ++ .armed id generation :: older))
    (same : .called .reset ∉ newer) :
    newer = [] ∨ newer = [.called .stop] ∨ .woke generation ∈ newer := by
  induction newer with
  | nil => exact .inl rfl
  | cons note rest ih =>
      obtain ⟨admitted, orderly⟩ := orderly
      simp only [List.mem_cons, not_or] at same
      rcases ih orderly same.2 with rfl | rfl | woke
      · cases admitted with
        | reset => exact absurd rfl same.1
        | stop => exact .inr (.inl rfl)
        | woke => exact .inr (.inr List.mem_cons_self)
      · cases admitted with
        | reset => exact absurd rfl same.1
        | stop other => exact absurd rfl other
      · exact .inr (.inr (List.mem_cons_of_mem _ woke))

theorem Orderly.woke_of_exec (orderly : Orderly (newer ++ .armed id generation :: older))
    (same : .called .reset ∉ newer) (ran : .called (.exec resume outcome) ∈ newer) :
    .woke generation ∈ newer := by
  rcases orderly.since_armed same with rfl | rfl | woke
  · cases ran
  · cases List.mem_singleton.mp ran
  · exact woke

theorem Orderly.armed_of_woke (orderly : Orderly notes) (woke : .woke generation ∈ notes) :
    ∃ id, .armed id generation ∈ notes := by
  induction notes with
  | nil => cases woke
  | cons note older ih =>
      obtain ⟨admitted, orderly⟩ := orderly
      rcases List.mem_cons.mp woke with rfl | before
      · cases older with
        | nil => cases admitted
        | cons newest older =>
            cases admitted with
            | woke id => exact ⟨id, List.mem_cons_of_mem _ List.mem_cons_self⟩
      · obtain ⟨id, armed⟩ := ih orderly before
        exact ⟨id, List.mem_cons_of_mem _ armed⟩

end SleepNote

namespace Slumber

variable {notes new : List SleepNote} {s other : Slumber}

theorem Told.le_of_woke (told : Told notes s) {generation : Nat} (woke : .woke generation ∈ notes) :
    generation ≤ s.generation := by
  obtain ⟨id, armed⟩ := told.orderly.armed_of_woke woke
  exact told.bounded generation (List.mem_filterMap.mpr ⟨_, armed, rfl⟩)

/-- A program that has asked for a sleep and got none yet is on its way to it. -/
def Dozes (newest : Option SleepNote) (s : Slumber) : Prop :=
  ∀ given nanoseconds, newest = some (.called (.exec given (.sleep nanoseconds))) →
    s.running = true ∧ s.last = .sleep nanoseconds

theorem Dozes.step (dozes : Dozes notes.head? s) (step : Step new s other) :
    Dozes (new ++ notes).head? other := by
  intro given nanoseconds newest
  cases step with
  | kept => exact dozes given nanoseconds newest
  | begun | stopped | armed | woke => cases newest
  | ran running =>
      cases newest
      exact ⟨running, rfl⟩
  | finished ended =>
      have last := (dozes given nanoseconds newest).2
      rw [ended] at last
      cases last
  | failed failed =>
      have last := (dozes given nanoseconds newest).2
      rw [failed] at last
      cases last

theorem Stands.awake_of_exec {given : Resume} {outcome : Outcome}
    (stands : Stands (some (.called (.exec given outcome))) s) : s.sleep = none := by
  cases stands with
  | off _ _ _ awake => exact awake
  | ran _ awake => exact awake

end Slumber

namespace Bench

variable {b other : Bench (Journal σ)} {event : Option SimEvent}

/-- Only its event ends a sleep. -/
theorem event_of_woke {generation : Nat} (woke : .woke generation ∈ notes event b other) :
    event = some (.sleepElapsed generation) := by
  simp only [notes, armedBy, calledBy, List.mem_append, List.mem_filterMap, List.mem_map] at woke
  rcases woke with (woke | ⟨t, _, armed⟩) | ⟨call, _, called⟩
  · unfold wokenBy at woke
    split at woke
    · split at woke
      · cases woke
      · cases List.mem_singleton.mp woke
        rfl
    · cases woke
  · split at armed
    · split at armed <;> cases armed
    · cases armed
  · cases called

/-- A program that has asked for a sleep and got none yet gets it from the next step. -/
theorem step_of_sleep [Engine σ] [Device σ] {b : Bench σ} {nanoseconds : UInt64}
    (running : b.scheduler.running = true) (active : b.scheduler.paused = false)
    (last : b.scheduler.last = .sleep nanoseconds) : b.step = (.sleeping, b.taken.sleep nanoseconds) := by
  have last : b.taken.scheduler.last = .sleep nanoseconds := last
  rw [step_eq, running, active, Bool.not_false, Bool.and_true, if_pos rfl]
  simp only [proceed, last]

theorem step?_eq_none_iff [Engine σ] [Device σ] {b : Bench σ} :
    b.step? = none ↔ b.oversleeps = true ∨ Engine.brokenOff b.step.2.rig = true := by
  cases long : b.oversleeps <;> simp [step?, long]

/-- A step that does not break the program off is the step. -/
theorem eq_step_of_step? [Engine σ] [Device σ] {b : Bench σ} {done : StepResult × Bench σ}
    (ran : b.step? = some done) : done = b.step := by
  simp only [step?] at ran
  split at ran
  · cases ran
  · exact (Option.some.inj ran).symm

theorem sleep_of_awake {b : Bench σ} (awake : b.scheduler.sleep = none) (nanoseconds : UInt64) :
    b.sleep nanoseconds =
      { b with
        scheduler.sleep := some (b.loop.nextId, b.scheduler.sleepGeneration + 1)
        scheduler.sleepGeneration := b.scheduler.sleepGeneration + 1
        loop :=
          (b.loop.singleShot (max (Scheduler.roundToMs nanoseconds) b.scheduler.minSleep)
            (.sleepElapsed (b.scheduler.sleepGeneration + 1))).2 } := by
  simp only [sleep, awake]
  rfl

end Bench

namespace Vigil

/-- The sleep of a number, which has begun, lasts until a time. -/
structure Lasts (v : Vigil σ) (generation deadline : Nat) : Prop where
  given : generation ≤ v.round.bench.scheduler.sleepGeneration
  withheld : v.round.Withholds generation deadline
  woke : .woke generation ∈ v.notes → deadline ≤ v.round.bench.loop.now

variable [Engine σ] [Device σ] {v : Vigil σ} {a : Act} {generation deadline : Nat}

theorem Lasts.act (lasts : v.Lasts generation deadline)
    (genuine : a ≠ .move (.stray (.sleepElapsed generation))) : (v.act a).Lasts generation deadline := by
  have operates := v.round.operates_act a
  refine ⟨lasts.given.trans operates.generation, lasts.withheld.act a (.inl lasts.given), fun woke => ?_⟩
  refine Nat.le_trans ?_ operates.now_le
  rcases List.mem_append.mp woke with new | old
  · exact lasts.withheld.batch (Round.mem_batch_of_handled (Bench.event_of_woke new) genuine)
  · exact lasts.woke old

theorem Lasts.acts (lasts : v.Lasts generation deadline) {bs : List Act}
    (genuine : .move (.stray (.sleepElapsed generation)) ∉ bs) : (v.acts bs).Lasts generation deadline := by
  induction bs generalizing v with
  | nil => exact lasts
  | cons b rest ih =>
      simp only [List.mem_cons, not_or] at genuine
      exact ih (lasts.act (Ne.symm genuine.1)) genuine.2

/-- In an act a sleep begins that takes a delay. -/
structure SleepsFor (v : Vigil σ) (a : Act) (delay : Nat) : Prop where
  /-- A timer is armed under the next name and for the next number, and is due once the delay is over. -/
  armed : (v.act a).round.bench.loop.timers = v.round.bench.loop.timers ++
    [⟨v.round.bench.loop.nextId, v.round.bench.loop.now + delay, none,
      .sleepElapsed (v.round.bench.scheduler.sleepGeneration + 1)⟩]
  /-- Whatever is done then, unless someone makes the event of this sleep up, no batch of the same run is
      executed before. -/
  waits : ∀ {bs newer resume outcome},
    .move (.stray (.sleepElapsed (v.round.bench.scheduler.sleepGeneration + 1))) ∉ bs →
    ((v.act a).acts bs).notes = newer ++ (v.act a).notes → .called .reset ∉ newer →
    .called (.exec resume outcome) ∈ newer →
    v.round.bench.loop.now + delay ≤ ((v.act a).acts bs).round.bench.loop.now

/-- A vigil in which no sleep has had a number that is still to be given out. -/
structure Watchful (v : Vigil σ) : Prop extends v.Sound where
  unslept : v.round.Unslept
  dozes : Slumber.Dozes v.notes.head? v.round.bench.scheduler.slumber

namespace Watchful

omit [Engine σ] [Device σ] in
theorem fresh (settings : SimulatorSettings) (rig : σ) : (Vigil.fresh settings rig).Watchful :=
  ⟨.fresh settings rig, .fresh settings (⟨rig, []⟩ : Journal σ), nofun⟩

theorem act (watchful : v.Watchful) (a : Act) : (v.act a).Watchful :=
  ⟨watchful.toSound.act a, watchful.unslept.act a,
    watchful.dozes.step (Round.slumber_act watchful.armed.numbered a)⟩

theorem acts (watchful : v.Watchful) (as : List Act) : (v.acts as).Watchful := by
  induction as generalizing v with
  | nil => exact watchful
  | cons a rest ih => exact ih (watchful.act a)

variable {older : List SleepNote} {given : Resume} {nanoseconds : UInt64} (watchful : v.Watchful)
  (slept : v.notes = .called (.exec given (.sleep nanoseconds)) :: older)
  (stepped : v.round.handledBy a = some .runStep) (active : v.round.bench.scheduler.paused = false)

omit [Engine σ] [Device σ] in
include watchful slept in
/-- The program waits for the sleep that it has asked for. -/
theorem awake_of_slept : v.round.bench.scheduler.running = true ∧
    v.round.bench.scheduler.last = .sleep nanoseconds ∧ v.round.bench.scheduler.sleep = none := by
  obtain ⟨running, last⟩ := watchful.dozes given nanoseconds (congrArg List.head? slept)
  have stands := watchful.told.stands
  rw [slept] at stands
  exact ⟨running, last, stands.awake_of_exec⟩

include watchful slept stepped active

theorem step_of_slept : v.round.bench.step = (.sleeping, (v.act a).round.bench) := by
  obtain ⟨running, last, _⟩ := watchful.awake_of_slept slept
  have handled : (v.act a).round.bench = v.round.bench.step.2 := Round.bench_of_handled stepped
  rw [handled, Bench.step_of_sleep running active last]

/-- The sleep that the last batch has asked for begins, and nothing else happens. -/
theorem bench_of_slept : (v.act a).round.bench =
    { v.round.bench with
      scheduler.stepPosted := false
      scheduler.sleep := some (v.round.bench.loop.nextId, v.round.bench.scheduler.sleepGeneration + 1)
      scheduler.sleepGeneration := v.round.bench.scheduler.sleepGeneration + 1
      loop :=
        (v.round.bench.loop.singleShot
          (max (Scheduler.roundToMs nanoseconds) v.round.bench.scheduler.minSleep)
          (.sleepElapsed (v.round.bench.scheduler.sleepGeneration + 1))).2 } := by
  obtain ⟨running, last, awake⟩ := watchful.awake_of_slept slept
  have awake : v.round.bench.taken.scheduler.sleep = none := awake
  have stepped := watchful.step_of_slept slept stepped active
  rw [Bench.step_of_sleep running active last, Bench.sleep_of_awake awake] at stepped
  exact (congrArg Prod.snd stepped).symm

theorem step?_eq_none_iff : v.round.bench.step? = none ↔
    ¬nanoseconds.toNat + 500000 < 2 ^ 64 ∨ Engine.brokenOff v.round.bench.rig = true := by
  obtain ⟨running, last, awake⟩ := watchful.awake_of_slept slept
  have kept : (v.act a).round.bench.rig = v.round.bench.rig := by rw [watchful.bench_of_slept slept stepped active]
  have long : v.round.bench.oversleeps = true ↔ ¬nanoseconds.toNat + 500000 < 2 ^ 64 := by
    simp [Bench.oversleeps, running, active, awake, last, Scheduler.Roundable, UInt64.size]
  rw [Bench.step?_eq_none_iff, watchful.step_of_slept slept stepped active, kept, long]

theorem notes_of_slept : (v.act a).notes =
    .armed v.round.bench.loop.nextId (v.round.bench.scheduler.sleepGeneration + 1) :: v.notes := by
  have bench := watchful.bench_of_slept slept stepped active
  have timers := congrArg (·.loop.timers) bench
  have calls : (v.act a).round.bench.rig.calls = v.round.bench.rig.calls := by rw [bench]
  change Bench.notes (v.round.handledBy a) v.round.bench (v.act a).round.bench ++ v.notes = _
  rw [stepped, Bench.notes, Bench.armedBy_eq watchful.armed.numbered timers, Bench.calledBy_same calls]
  rfl

theorem lasts_of_slept : (v.act a).Lasts (v.round.bench.scheduler.sleepGeneration + 1)
    (v.round.bench.loop.now +
      max (Scheduler.roundToMs nanoseconds) v.round.bench.scheduler.minSleep) := by
  have bench := watchful.bench_of_slept slept stepped active
  have unslept := watchful.unslept _ (Nat.lt_succ_self v.round.bench.scheduler.sleepGeneration)
  refine ⟨?given, ⟨⟨fun t member same => ?timers, ?unposted⟩, fun member => ?batch⟩, fun woke => ?woke⟩
  case given => rw [bench]
  case timers =>
    rw [bench, EventLoop.timers_singleShot] at member
    rcases List.mem_append.mp member with old | new
    · exact (unslept _).loop.timers t old same
    · rw [List.mem_singleton.mp new]
  case unposted =>
    rw [bench]
    exact (unslept 0).loop.unposted
  case batch =>
    -- The event is nowhere yet.
    have soon := unslept (v.round.bench.loop.now + 1)
    have already := (Round.mem_batch_act member).elim soon.batch soon.loop.le_now_of_drain
    exact absurd already (Nat.not_succ_le_self _)
  case woke =>
    rw [watchful.notes_of_slept slept stepped active] at woke
    have before := (List.mem_cons.mp woke).resolve_left nofun
    exact absurd (watchful.told.le_of_woke before) (Nat.not_succ_le_self _)

theorem sleepsFor :
    v.SleepsFor a (max (Scheduler.roundToMs nanoseconds) v.round.bench.scheduler.minSleep) := by
  refine ⟨?armed, fun {bs newer resume outcome} genuine noted same ran => ?waits⟩
  case armed => exact congrArg (·.loop.timers) (watchful.bench_of_slept slept stepped active)
  case waits =>
    have lasts := (watchful.lasts_of_slept slept stepped active).acts genuine
    have orderly := ((watchful.act a).acts bs).told.orderly
    rw [noted, watchful.notes_of_slept slept stepped active] at orderly
    refine lasts.woke ?_
    rw [noted]
    exact List.mem_append_left _ (orderly.woke_of_exec same ran)

end Watchful

/-- A batch has ended with a sleep of some nanoseconds, and the next step is handled while the program is not
    paused. This step breaks the program off if the nanoseconds leave no room for the half that rounds them, and
    if nothing else has broken it off only then. With that room it sleeps for the nearest milliseconds, or as long
    as it must if they are fewer. -/
theorem sleeps_in_full_or_broken_off (settings : SimulatorSettings) (rig : σ) (as : List Act) {a : Act}
    {given : Resume} {nanoseconds : UInt64} {older : List SleepNote}
    (slept : ((Vigil.fresh settings rig).acts as).notes = .called (.exec given (.sleep nanoseconds)) :: older)
    (stepped : ((Vigil.fresh settings rig).acts as).round.handledBy a = some .runStep)
    (active : ((Vigil.fresh settings rig).acts as).round.bench.scheduler.paused = false) :
    let v := (Vigil.fresh settings rig).acts as
    let room := nanoseconds.toNat + 500000 < 2 ^ 64
    v.round.map Journal.rig = (Round.fresh settings rig).acts as ∧
      (v.round.bench.step? = none ↔ ¬room ∨ Engine.brokenOff v.round.bench.rig = true) ∧
      (∀ done, v.round.bench.step? = some done → done = (.sleeping, (v.act a).round.bench)) ∧
      (room → ∃ ms, nanoseconds.toNat < ms * 1000000 + 500000 ∧ ms * 1000000 ≤ nanoseconds.toNat + 500000 ∧
        v.SleepsFor a (max ms settings.minSleep)) := by
  intro v room
  have watchful : v.Watchful := (Watchful.fresh settings rig).acts as
  have round : v.round = (Round.fresh settings ⟨rig, []⟩).acts as := round_acts _ as
  have setup : v.round.bench.scheduler.minSleep = settings.minSleep := by
    rw [round]
    exact congrArg (·.2.1) (Round.setup_acts (Round.fresh settings (⟨rig, []⟩ : Journal σ)) as)
  have sleeps := watchful.sleepsFor slept stepped active
  rw [setup] at sleeps
  obtain ⟨late, early⟩ := Scheduler.roundToMs_nearest nanoseconds
  refine ⟨?_, watchful.step?_eq_none_iff slept stepped active, fun done ran => ?_, fun _ => ⟨_, late, early, sleeps⟩⟩
  · rw [round]
    exact Round.map_acts _ as
  · rw [Bench.eq_step_of_step? ran, watchful.step_of_slept slept stepped active]

/-- The longest sleep that there is breaks the program off. One of half a millisecond takes a whole one. -/
theorem sleeps_in_full_or_broken_off_longest :
    let asks (nanoseconds : UInt64) : Vigil Playback :=
      (Vigil.fresh .standard ⟨.ofResults [.sleep nanoseconds, .more], .ofLit []⟩).acts
        [.start, .move .drain, .move .next, .move .drain]
    (asks 18446744073709551615).notes =
        [.called (.exec .nothing (.sleep 18446744073709551615)), .called .reset] ∧
      (asks 18446744073709551615).round.bench.step? = none ∧
      (asks 500000).notes = [.called (.exec .nothing (.sleep 500000)), .called .reset] ∧
      (asks 500000).SleepsFor (.move .next) 1 := by
  intro asks
  have long : (asks 18446744073709551615).notes =
      [.called (.exec .nothing (.sleep 18446744073709551615)), .called .reset] := by decide +kernel
  have short : (asks 500000).notes = [.called (.exec .nothing (.sleep 500000)), .called .reset] := by
    decide +kernel
  have next : (asks 18446744073709551615).round.handledBy (.move .next) = some .runStep ∧
      (asks 500000).round.handledBy (.move .next) = some .runStep := by decide +kernel
  have active : (asks 18446744073709551615).round.bench.scheduler.paused = false ∧
      (asks 500000).round.bench.scheduler.paused = false := by decide +kernel
  obtain ⟨_, broken, _⟩ := sleeps_in_full_or_broken_off .standard _ _ long next.1 active.1
  obtain ⟨_, _, _, full⟩ := sleeps_in_full_or_broken_off .standard _ _ short next.2 active.2
  obtain ⟨ms, late, early, sleeps⟩ := full (by decide)
  obtain rfl : ms = 1 := by
    have half : (500000 : UInt64).toNat = 500000 := rfl
    omega
  exact ⟨long, broken.mpr (.inl (by decide)), short, sleeps⟩

end Vigil

end PocketBasic
