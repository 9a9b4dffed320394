import PocketBasic.Proofs.Simulator.Recorder
import PocketBasic.Proofs.Simulator.Rest
import PocketBasic.Proofs.Simulator.StepChain
import PocketBasic.Proofs.Simulator.Watched

/-! # One step after a sleep

A vigil is a round together with what was noted of it. Whatever is done to the round, its scheduler is where
the newest note says it is: a sleep that has ended leaves a program that goes on with the next step that it is
given, and the event of any other sleep finds nothing to end.
-/

namespace PocketBasic

variable {σ : Type}

/-! ## Rounds -/

/-- The event that is handled in an act. -/
def Round.handledBy (r : Round σ) : Act → Option SimEvent
  | .move m => r.handling m
  | _ => none

namespace Bench

variable {b : Bench (Journal σ)} {batch : List SimEvent} (numbered : b.loop.Numbered)

include numbered

/-- Only the loop has changed, and it has got no timer for a sleep. -/
theorem slumber_loop {loop : EventLoop SimEvent} (unarmed : Unarmed b { b with loop }) :
    Slumber.Step (notes none b { b with loop }) b.scheduler.slumber b.scheduler.slumber := by
  rw [notes_of_calls numbered [] rfl unarmed rfl]
  exact .kept _

variable [Engine σ] [Device σ]

theorem notes_step_of_paused (paused : b.scheduler.paused = true) :
    notes (some .runStep) b b.step.2 = [] := by
  rw [step_eq, paused, Bool.not_true, Bool.and_false, if_neg Bool.false_ne_true]
  exact notes_of_calls numbered [] rfl (unarmed_of_mem fun _ => id) rfl

theorem notes_step_of_eager (eager : b.scheduler.Eager) :
    ∃ outcome, notes (some .runStep) b b.step.2 = [.called (.exec .nothing outcome)] := by
  have last : b.taken.scheduler.last = .more := eager.last
  have stepped : b.step.2 = b.taken.runBatch .nothing := by
    rw [step_eq, eager.running, eager.active, Bool.not_false, Bool.and_true, if_pos rfl]
    simp only [Bench.proceed, last]
  have taken : b.taken.loop.Numbered := numbered
  rw [stepped]
  exact ⟨_, notes_runBatch taken (.refl b.taken) .nothing⟩

theorem ready_handle (ready : b.Ready) (event : SimEvent) : (b.handle event).Ready := by
  by_cases step : event = .runStep
  · subst step
    exact ready_step numbered
  · exact ready.posts (passes_handle numbered step).posts

/-- A step that is handled need not be waited for. -/
theorem pending_handle (event : SimEvent) (pending : event ≠ .runStep → b.Pending batch) :
    (b.handle event).Pending batch := by
  by_cases step : event = .runStep
  · subst step
    exact pending_step numbered
  · exact (pending step).posts (passes_handle numbered step).posts

end Bench

namespace Round

/-- The timers and the steps on their way are where the scheduler takes them to be. -/
structure Watched (r : Round (Journal σ)) : Prop where
  armed : r.bench.Armed r.batch
  ready : r.bench.Ready
  pending : r.bench.Pending r.batch

theorem Watched.fresh (settings : SimulatorSettings) (rig : Journal σ) :
    (Round.fresh settings rig).Watched :=
  ⟨Bench.Armed.fresh settings rig rfl, fun eager => (nomatch eager.running), nofun⟩

variable [Engine σ] [Device σ] {r : Round (Journal σ)}

theorem bench_of_handled {a : Act} {event : SimEvent} (handled : r.handledBy a = some event) :
    (r.act a).bench = r.bench.handle event := by
  cases a with
  | start | stop => cases handled
  | move m =>
      cases m with
      | next =>
          obtain ⟨b, batch⟩ := r
          cases batch with
          | nil => cases handled
          | cons first rest =>
              cases handled
              rfl
      | stray event =>
          cases handled
          rfl
      | pause | cont | press | lift | liftLater | provide | advance | drain => cases handled

/-- Every act is a step of the slumber. -/
theorem slumber_act (numbered : r.bench.loop.Numbered) (a : Act) :
    Slumber.Step (Bench.notes (r.handledBy a) r.bench (r.act a).bench) r.bench.scheduler.slumber
      (r.act a).bench.scheduler.slumber := by
  have quiet {b : Bench (Journal σ)} (same : r.bench.Undisturbed b) :
      Slumber.Step (Bench.notes none r.bench b) r.bench.scheduler.slumber b.scheduler.slumber :=
    (Bench.Passes.undisturbed numbered same rfl).step
  cases a with
  | start => exact (Bench.Passes.start numbered).step
  | stop => exact (Bench.Passes.stop numbered).step
  | move m =>
      cases m with
      | pause => exact quiet (.pause r.bench)
      | cont => exact quiet (.cont r.bench)
      | press key => exact quiet (.keyDown r.bench key)
      | lift key => exact quiet (.keyUp r.bench key)
      | provide values => exact quiet (.provide r.bench values)
      | liftLater delay key =>
          refine Bench.slumber_loop numbered fun t member => ?_
          simp only [EventLoop.timers_singleShot, List.mem_append, List.mem_singleton] at member
          rcases member with inside | rfl
          · exact .inl ⟨t, inside, rfl⟩
          · exact .inr rfl
      | advance ms => exact Bench.slumber_loop numbered (Bench.unarmed_of_mem fun _ => id)
      | drain => exact Bench.slumber_loop numbered (Bench.unarmed_drain r.bench)
      | next =>
          obtain ⟨b, batch⟩ := r
          cases batch with
          | nil => exact quiet (.refl b)
          | cons event rest => exact Bench.slumber_handle numbered event
      | stray event => exact Bench.slumber_handle numbered event

theorem Watched.act (watched : r.Watched) (a : Act) : (r.act a).Watched := by
  obtain ⟨armed, ready, pending⟩ := watched
  have numbered := armed.numbered
  have posted {b : Bench (Journal σ)} (armed : b.Armed r.batch) (posts : r.bench.Posts b) :
      Watched ⟨b, r.batch⟩ := ⟨armed, ready.posts posts, pending.posts posts⟩
  cases a with
  | start => exact posted armed.start (Bench.Passes.start numbered).posts
  | stop => exact posted armed.stop (Bench.Passes.stop numbered).posts
  | move m =>
      cases m with
      | pause => exact posted armed.pause (Bench.Undisturbed.pause r.bench).posts
      | cont => exact posted armed.cont (Bench.Undisturbed.cont r.bench).posts
      | press key => exact posted (armed.keyDown key) (Bench.Undisturbed.keyDown r.bench key).posts
      | lift key => exact posted (armed.keyUp key) (Bench.Undisturbed.keyUp r.bench key).posts
      | provide values =>
          exact posted (armed.provide values) (Bench.Undisturbed.provide r.bench values).posts
      | liftLater delay key => exact posted (armed.singleShot delay _) (.kept id rfl rfl)
      | advance ms => exact posted (armed.of_same rfl rfl rfl rfl rfl) (.kept id rfl rfl)
      | drain =>
          -- The posted steps are the last ones of those that are drained.
          refine ⟨armed.drain, ready, fun flag => List.mem_append_right _ ?_⟩
          rcases List.mem_append.mp (pending flag) with posted | drained
          · exact List.mem_append_right _ (List.mem_append_right _ posted)
          · exact List.mem_append_left _ drained
      | next =>
          obtain ⟨b, batch⟩ := r
          cases batch with
          | nil => exact ⟨armed, ready, pending⟩
          | cons event rest =>
              refine ⟨armed.handle, Bench.ready_handle numbered ready event, ?_⟩
              refine Bench.pending_handle numbered event fun other flag => List.mem_append.mpr ?_
              refine (List.mem_append.mp (pending flag)).imp_right fun member => ?_
              exact (List.mem_cons.mp member).resolve_left other.symm
      | stray event =>
          have weaker : r.bench.Armed (event :: r.batch) := armed.weaken (List.subset_cons_self _ _)
          exact ⟨weaker.handle, Bench.ready_handle numbered ready event,
            Bench.pending_handle numbered event fun _ => pending⟩

theorem map_acts (r : Round (Journal σ)) (as : List Act) :
    (r.acts as).map Journal.rig = (r.map Journal.rig).acts as := by
  induction as generalizing r with
  | nil => rfl
  | cons a rest ih =>
      refine (ih (r.act a)).trans ?_
      rw [← r.map_act Journal.hom a]
      rfl

theorem Reachable.acts {r : Round σ} (reachable : Reachable r) {as : List Act}
    (delivered : .move (.stray .runStep) ∉ as) : Reachable (r.acts as) := by
  induction as generalizing r with
  | nil => exact reachable
  | cons a rest ih =>
      simp only [List.mem_cons, not_or] at delivered
      exact ih (.act a (Ne.symm delivered.1) reachable) delivered.2

end Round

/-! ## Vigils -/

/-- A round and what was noted of it, the newest note in front. -/
structure Vigil (σ : Type) where
  round : Round (Journal σ)
  notes : List SleepNote

namespace Vigil

/-- Nothing has happened yet. -/
def fresh (settings : SimulatorSettings) (rig : σ) : Vigil σ := ⟨.fresh settings ⟨rig, []⟩, []⟩

/-- What was noted tells where the scheduler is. -/
structure Sound (v : Vigil σ) : Prop extends v.round.Watched where
  told : Slumber.Told v.notes v.round.bench.scheduler.slumber

variable {v : Vigil σ} {older : List SleepNote} {id : TimerId} {generation : Nat}

namespace Sound

theorem fresh (settings : SimulatorSettings) (rig : σ) : (Vigil.fresh settings rig).Sound :=
  ⟨.fresh settings ⟨rig, []⟩, Slumber.told_nil _ rfl rfl rfl⟩

theorem of_armed (sound : v.Sound) (newest : v.notes = .armed id generation :: older) :
    v.round.bench.scheduler.running = true ∧ v.round.bench.scheduler.sleep = some (id, generation) := by
  have stands := sound.told.stands
  rw [newest] at stands
  exact stands.of_armed

theorem of_woke (sound : v.Sound) (newest : v.notes = .woke generation :: older) :
    v.round.bench.scheduler.running = true ∧ v.round.bench.scheduler.last = .more := by
  have stands := sound.told.stands
  rw [newest] at stands
  exact stands.of_woke

/-- A program whose sleep has ended has a step on its way while it is not paused. -/
theorem queued (sound : v.Sound) (newest : v.notes = .woke generation :: older)
    (active : v.round.bench.scheduler.paused = false) :
    v.round.bench.scheduler.stepPosted = true ∧ .runStep ∈ v.round.bench.loop.posted ++ v.round.batch := by
  obtain ⟨running, last⟩ := sound.of_woke newest
  have flag := sound.ready ⟨running, active, last⟩
  exact ⟨flag, sound.pending flag⟩

end Sound

variable [Engine σ] [Device σ]

def act (v : Vigil σ) (a : Act) : Vigil σ :=
  ⟨v.round.act a, Bench.notes (v.round.handledBy a) v.round.bench (v.round.act a).bench ++ v.notes⟩

/-- Acts one after the other. -/
def acts (v : Vigil σ) (as : List Act) : Vigil σ := as.foldl act v

theorem Sound.act (sound : v.Sound) (a : Act) : (v.act a).Sound :=
  ⟨sound.toWatched.act a, sound.told.step (Round.slumber_act sound.armed.numbered a)⟩

theorem Sound.acts (sound : v.Sound) (as : List Act) : (v.acts as).Sound := by
  induction as generalizing v with
  | nil => exact sound
  | cons a rest ih => exact ih (sound.act a)

/-- To watch a round changes nothing. -/
theorem round_acts (v : Vigil σ) (as : List Act) : (v.acts as).round = v.round.acts as := by
  induction as generalizing v with
  | nil => rfl
  | cons a rest ih => exact ih (v.act a)

/-! ## What follows a sleep -/

variable {a : Act}

theorem notes_of_handled {event : SimEvent} (handled : v.round.handledBy a = some event) :
    (v.act a).notes =
      Bench.notes (some event) v.round.bench (v.round.bench.handle event) ++ v.notes := by
  rw [act, handled, Round.bench_of_handled handled]

namespace Sound

variable (sound : v.Sound)

include sound

/-- The event of the sleep under way ends it, and posts a step unless the program is paused. -/
theorem ended (newest : v.notes = .armed id generation :: older)
    (handled : v.round.handledBy a = some (.sleepElapsed generation)) :
    (v.act a).notes = .woke generation :: v.notes ∧
      (v.act a).round.bench.loop.posted = v.round.bench.loop.posted ++
        if v.round.bench.scheduler.paused || v.round.bench.scheduler.stepPosted then [] else [.runStep] := by
  obtain ⟨running, asleep⟩ := sound.of_armed newest
  have numbered := sound.armed.numbered
  have acted : (v.act a).round.bench = v.round.bench.wake generation := Round.bench_of_handled handled
  rw [notes_of_handled handled, acted]
  change Bench.notes _ _ (v.round.bench.wake generation) ++ _ = _ ∧ _
  refine v.round.bench.wake_cases generation ?woken ?held ?stale
  case woken =>
    intro _ _ _ active
    rw [Bench.notes_of_woken numbered asleep (by rw [Bench.scheduler_schedule]) (by rw [Bench.rig_schedule])
      (by rw [Bench.timers_schedule]), Bench.posted_schedule, active]
    exact ⟨rfl, rfl⟩
  case held =>
    intro _ _ halted
    have paused : v.round.bench.scheduler.paused = true := by simpa [running] using halted
    rw [paused, Bool.true_or, if_pos rfl, List.append_nil, Bench.notes_of_woken numbered asleep]
    · exact ⟨rfl, rfl⟩
    all_goals rfl
  case stale => exact fun stale => absurd asleep (stale id)

/-- The event of any other sleep finds nothing to end. -/
theorem stale (other : ∀ id, v.notes.head? ≠ some (.armed id generation))
    (handled : v.round.handledBy a = some (.sleepElapsed generation)) :
    (v.act a).round.bench = v.round.bench := by
  have never (id : TimerId) : v.round.bench.scheduler.sleep ≠ some (id, generation) := fun asleep =>
    other id (sound.told.stands.newest_of_asleep asleep).1
  have acted : (v.act a).round.bench = v.round.bench.wake generation := Round.bench_of_handled handled
  rw [acted]
  refine v.round.bench.wake_cases generation ?woken ?held ?stale
  case woken => exact fun id asleep => absurd asleep (never id)
  case held => exact fun id asleep => absurd asleep (never id)
  case stale => exact fun _ => rfl

/-- The first step that is handled once a sleep has ended runs one batch, unless the program is paused. -/
theorem stepped (newest : v.notes = .woke generation :: older)
    (handled : v.round.handledBy a = some .runStep) :
    if v.round.bench.scheduler.paused then (v.act a).notes = v.notes
    else ∃ outcome, (v.act a).notes = .called (.exec .nothing outcome) :: v.notes := by
  obtain ⟨running, last⟩ := sound.of_woke newest
  have numbered := sound.armed.numbered
  rw [notes_of_handled handled]
  change if _ then Bench.notes _ _ v.round.bench.step.2 ++ _ = _ else
    ∃ outcome, Bench.notes _ _ v.round.bench.step.2 ++ _ = _
  cases active : v.round.bench.scheduler.paused with
  | true =>
      rw [if_pos rfl, Bench.notes_step_of_paused numbered active]
      rfl
  | false =>
      obtain ⟨outcome, noted⟩ := Bench.notes_step_of_eager numbered ⟨running, active, last⟩
      rw [if_neg Bool.false_ne_true, noted]
      exact ⟨outcome, rfl⟩

/-- A program whose sleep has ended while it was paused is given its step when it is continued. -/
theorem continued (newest : v.notes = .woke generation :: older)
    (paused : v.round.bench.scheduler.paused = true) :
    (v.act (.move .cont)).notes = v.notes ∧
      (v.act (.move .cont)).round.bench.scheduler.paused = false ∧
      (v.act (.move .cont)).round.bench.loop.posted = v.round.bench.loop.posted ++
        if v.round.bench.scheduler.stepPosted then [] else [.runStep] := by
  have same := Bench.Undisturbed.cont v.round.bench
  have unnoted : Bench.notes none v.round.bench v.round.bench.cont = [] :=
    Bench.notes_of_calls sound.armed.numbered [] rfl same.timers same.calls
  refine ⟨congrArg (· ++ v.notes) unnoted, ?_⟩
  change v.round.bench.cont.scheduler.paused = false ∧ v.round.bench.cont.loop.posted = _
  refine v.round.bench.cont_cases ?continued ?ignored
  case continued =>
    intro _ _
    rw [Bench.scheduler_schedule, Bench.posted_schedule]
    exact ⟨rfl, rfl⟩
  case ignored =>
    intro ignored
    rw [(sound.of_woke newest).1, paused] at ignored
    cases ignored

/-- Once anything was noted after a timer was armed, its event changes nothing. -/
theorem superseded {newer : List SleepNote} (noted : v.notes = newer ++ .armed id generation :: older)
    (since : newer ≠ []) (handled : v.round.handledBy a = some (.sleepElapsed generation)) :
    (v.act a).round.bench = v.round.bench := by
  refine sound.stale (fun other newest => ?_) handled
  have numbered := sound.told.numbered
  cases newer with
  | nil => exact since rfl
  | cons note rest =>
      rw [noted] at newest numbered
      obtain rfl := Option.some.inj newest
      have smaller : generation < generation := by
        refine (List.pairwise_cons.mp numbered).1 generation ?_
        exact List.mem_filterMap.mpr
          ⟨_, List.mem_append_right rest List.mem_cons_self, rfl⟩
      exact Nat.lt_irrefl _ smaller

end Sound

/-- Every sleep is followed by one step. -/
structure OneStepEach (v : Vigil σ) : Prop where
  /-- No two sleeps have the same number, not even over a stop and a start. -/
  numbered : (v.notes.filterMap SleepNote.generation?).Pairwise (· > ·)
  /-- Until the next batch or the next start, one timer is armed at most and its event ends the sleep once. -/
  slept : ∀ {newer between older given nanoseconds},
    v.notes = newer ++ (between ++ .called (.exec given (.sleep nanoseconds)) :: older) →
    (∀ call, .called call ∈ between → call = .stop) → SleepNote.Slept between
  /-- Before the next batch of the run both have happened, and nothing else. -/
  followed : ∀ {newer between older given resume nanoseconds outcome},
    v.notes = newer ++ .called (.exec resume outcome) ::
      (between ++ .called (.exec given (.sleep nanoseconds)) :: older) →
    (∀ call, .called call ∈ between → call = .stop) →
    resume = .nothing ∧ ∃ id generation, between = [.woke generation, .armed id generation]
  /-- The timer of the sleep under way is on the loop, or its event is drained and not handled yet. -/
  asleep : ∀ {id generation older}, v.notes = .armed id generation :: older →
    (∃ t ∈ v.round.bench.loop.timers, t.id = id ∧ t.event = .sleepElapsed generation) ∨
      .sleepElapsed generation ∈ v.round.batch
  /-- That event ends the sleep, and one step is posted at once unless the program is paused. -/
  ended : ∀ {a id generation older}, v.notes = .armed id generation :: older →
    v.round.handledBy a = some (.sleepElapsed generation) →
    (v.act a).notes = .woke generation :: v.notes ∧
      (v.act a).round.bench.loop.posted = v.round.bench.loop.posted ++
        if v.round.bench.scheduler.paused || v.round.bench.scheduler.stepPosted then [] else [.runStep]
  /-- If the program is paused, then one step is posted when it is continued. -/
  continued : ∀ {generation older}, v.notes = .woke generation :: older →
    v.round.bench.scheduler.paused = true →
    (v.act (.move .cont)).notes = v.notes ∧
      (v.act (.move .cont)).round.bench.scheduler.paused = false ∧
      (v.act (.move .cont)).round.bench.loop.posted = v.round.bench.loop.posted ++
        if v.round.bench.scheduler.stepPosted then [] else [.runStep]
  /-- Whichever of the two it was, the step is on its way. -/
  queued : ∀ {generation older}, v.notes = .woke generation :: older →
    v.round.bench.scheduler.paused = false →
    v.round.bench.scheduler.stepPosted = true ∧ .runStep ∈ v.round.bench.loop.posted ++ v.round.batch
  /-- The first step that is handled then while the program is not paused runs one batch. -/
  stepped : ∀ {a generation older}, v.notes = .woke generation :: older →
    v.round.handledBy a = some .runStep →
    if v.round.bench.scheduler.paused then (v.act a).notes = v.notes
    else ∃ outcome, (v.act a).notes = .called (.exec .nothing outcome) :: v.notes
  /-- The event of a sleep that is not the one under way changes nothing. -/
  stale : ∀ {a generation}, (∀ id, v.notes.head? ≠ some (.armed id generation)) →
    v.round.handledBy a = some (.sleepElapsed generation) → (v.act a).round.bench = v.round.bench
  /-- A sleep is not under way any more once anything was noted after its timer was armed. -/
  superseded : ∀ {a newer id generation older}, v.notes = newer ++ .armed id generation :: older →
    newer ≠ [] → v.round.handledBy a = some (.sleepElapsed generation) →
    (v.act a).round.bench = v.round.bench

theorem Sound.oneStepEach (sound : v.Sound) : v.OneStepEach where
  numbered := sound.told.numbered
  slept noted same := by
    have orderly := sound.told.orderly
    rw [noted] at orderly
    exact orderly.of_append.slept same
  followed noted same := by
    have orderly := sound.told.orderly
    rw [noted] at orderly
    exact orderly.of_append.between_execs same
  asleep newest := sound.armed.asleep _ _ (sound.of_armed newest).2
  ended := sound.ended
  continued := sound.continued
  queued := sound.queued
  stepped := sound.stepped
  stale := sound.stale
  superseded := sound.superseded

/-- Whatever happens to a scheduler: keys, pauses and events that the loop has not delivered as well. The step
    on its way is the only one if no step was handled that nobody has posted. -/
theorem one_step_after_sleep (settings : SimulatorSettings) (rig : σ) (as : List Act) :
    let v := (Vigil.fresh settings rig).acts as
    v.round.map Journal.rig = (Round.fresh settings rig).acts as ∧ v.OneStepEach ∧
      (.move (.stray .runStep) ∉ as →
        v.round.inFlight = if v.round.bench.scheduler.stepPosted then 1 else 0) := by
  intro v
  have sound : v.Sound := (Sound.fresh settings rig).acts as
  have round : v.round = (Round.fresh settings ⟨rig, []⟩).acts as := round_acts _ as
  refine ⟨?_, sound.oneStepEach, fun delivered => ?_⟩
  · rw [round]
    exact Round.map_acts _ as
  · rw [round]
    have opened : Round.Reachable (Round.fresh settings (⟨rig, []⟩ : Journal σ)) := .opened settings _
    exact (Round.inFlight_eq_stepPosted (opened.acts delivered)).1

/-- The event of the sleep comes twice while the program is paused, and a step comes too early. -/
example :
    let step : Act := .move (.stray .runStep)
    let elapsed : Act := .move (.stray (.sleepElapsed 1))
    let v := (Vigil.fresh .standard (⟨.ofResults [.sleep 3000000, .more], .ofLit []⟩ : Playback)).acts
      [.start, step, step, .move .pause, elapsed, elapsed, step, .move .cont, step]
    v.notes = [.called (.exec .nothing .more), .woke 1, .armed 2 1,
      .called (.exec .nothing (.sleep 3000000)), .called .reset] := by
  decide +kernel

end Vigil

end PocketBasic
