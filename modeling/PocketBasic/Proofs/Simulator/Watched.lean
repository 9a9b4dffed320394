import PocketBasic.Proofs.Simulator.Chronicle
import PocketBasic.Proofs.Simulator.Ownership
import PocketBasic.Proofs.Simulator.Rest
import PocketBasic.Proofs.Simulator.Slumber

/-! # Watching a program sleep

What happens to the sleeps of a program is seen from outside: which calls its engine gets, which timers come
onto the loop, and which events change the scheduler. Whatever is done to a round, what is seen of it is a
step of its slumber, so every sleep takes its course, and the step that ends it runs one batch.
-/

namespace PocketBasic

variable {σ : Type}

/-- What of a scheduler has to do with sleeps. -/
def Scheduler.slumber (s : Scheduler) : Slumber := ⟨s.running, s.last, s.sleep, s.sleepGeneration⟩

namespace Bench

/-! ## What is seen -/

/-- The calls that the engine has got from one bench to the next. -/
def calledBy (b other : Bench (Journal σ)) : List SleepNote :=
  (other.rig.calls.take (other.rig.calls.length - b.rig.calls.length)).map .called

/-- The timers of sleeps that have come onto the loop from one bench to the next. Their names are new. -/
def armedBy (b other : Bench (Journal σ)) : List SleepNote :=
  other.loop.timers.filterMap fun t =>
    match t.event with
    | .sleepElapsed generation => if b.loop.nextId ≤ t.id then some (.armed t.id generation) else none
    | _ => none

/-- The end of a sleep takes effect if it changes the scheduler. -/
def wokenBy (event : Option SimEvent) (b other : Bench (Journal σ)) : List SleepNote :=
  match event with
  | some (.sleepElapsed generation) =>
      if other.scheduler = b.scheduler then [] else [.woke generation]
  | _ => []

/-- All that is noted from one bench to the next, between which an event is handled, if any is. -/
def notes (event : Option SimEvent) (b other : Bench (Journal σ)) : List SleepNote :=
  wokenBy event b other ++ armedBy b other ++ calledBy b other

variable {b other : Bench (Journal σ)} {event : Option SimEvent}

theorem calledBy_eq {new : List Call} (calls : other.rig.calls = new ++ b.rig.calls) :
    calledBy b other = new.map .called := by
  simp [calledBy, calls]

theorem calledBy_same (calls : other.rig.calls = b.rig.calls) : calledBy b other = [] := by
  simp [calledBy, calls]

/-- No timer of a sleep has come onto the loop. -/
def Unarmed (b other : Bench (Journal σ)) : Prop :=
  ∀ t ∈ other.loop.timers, (∃ old ∈ b.loop.timers, old.id = t.id) ∨ t.event.isSleep = false

theorem unarmed_of_mem (timers : ∀ t ∈ other.loop.timers, t ∈ b.loop.timers) : Unarmed b other :=
  fun t member => .inl ⟨t, timers t member, rfl⟩

/-- The timers that a drain leaves have had their names before. -/
theorem unarmed_drain (b : Bench (Journal σ)) : Unarmed b { b with loop := b.loop.drain.2 } := by
  intro t member
  obtain ⟨old, inside, same, _⟩ := b.loop.exists_of_mem_timers_drain member
  exact .inl ⟨old, inside, same⟩

theorem armedBy_eq_nil (numbered : b.loop.Numbered) (unarmed : Unarmed b other) :
    armedBy b other = [] := by
  refine List.filterMap_eq_nil_iff.mpr fun t member => ?_
  rcases unarmed t member with ⟨old, inside, same⟩ | other
  · have known : ¬b.loop.nextId ≤ t.id := Nat.not_le_of_lt (same ▸ numbered old inside)
    split
    · exact if_neg known
    · rfl
  · split
    · rename_i elapsed
      rw [elapsed] at other
      cases other
    · rfl

theorem armedBy_eq (numbered : b.loop.Numbered) {deadline generation : Nat} {interval : Option Nat}
    (timers : other.loop.timers =
      b.loop.timers ++ [⟨b.loop.nextId, deadline, interval, .sleepElapsed generation⟩]) :
    armedBy b other = [.armed b.loop.nextId generation] := by
  have before : armedBy b b = [] := armedBy_eq_nil numbered (unarmed_of_mem fun _ => id)
  unfold armedBy at before ⊢
  rw [timers, List.filterMap_append, before]
  simp

/-- Where no sleep begins and none ends there is nothing but calls. -/
theorem notes_of_calls (numbered : b.loop.Numbered) (new : List Call) (woken : wokenBy event b other = [])
    (unarmed : Unarmed b other) (calls : other.rig.calls = new ++ b.rig.calls) :
    notes event b other = new.map .called := by
  rw [notes, woken, armedBy_eq_nil numbered unarmed, calledBy_eq calls]
  rfl

/-- An event that ends the sleep under way changes the scheduler. -/
theorem notes_of_woken (numbered : b.loop.Numbered) {id : TimerId} {generation : Nat}
    (asleep : b.scheduler.sleep = some (id, generation)) (awake : other.scheduler.sleep = none)
    (calls : other.rig.calls = b.rig.calls) (timers : other.loop.timers = b.loop.timers) :
    notes (some (.sleepElapsed generation)) b other = [.woke generation] := by
  have changed : other.scheduler ≠ b.scheduler := by
    intro same
    rw [same, asleep] at awake
    cases awake
  rw [notes, wokenBy, if_neg changed, calledBy_same calls,
    armedBy_eq_nil numbered (unarmed_of_mem fun t member => timers ▸ member)]
  rfl

end Bench

/-! ## Steps on their way -/

/-- The program could go on at once. -/
structure Scheduler.Eager (s : Scheduler) : Prop where
  running : s.running = true
  active : s.paused = false
  last : s.last = .more

theorem Scheduler.not_eager {s : Scheduler} (halted : (s.running && !s.paused) = false) : ¬s.Eager := by
  intro eager
  rw [eager.running, eager.active] at halted
  cases halted

namespace Bench

variable {b other c : Bench σ} {batch : List SimEvent}

/-- A program that could go on at once has a step on its way. -/
def Ready (b : Bench σ) : Prop := b.scheduler.Eager → b.scheduler.stepPosted = true

/-- A step that counts as posted is on the loop or in the batch. -/
def Pending (batch : List SimEvent) (b : Bench σ) : Prop :=
  b.scheduler.stepPosted = true → .runStep ∈ b.loop.posted ++ batch

/-- Either nothing was done about steps, and there was no need to, or one is on its way now. -/
inductive Posts (b other : Bench σ) : Prop where
  | kept (eager : other.scheduler.Eager → b.scheduler.Eager)
      (flag : other.scheduler.stepPosted = b.scheduler.stepPosted)
      (posted : other.loop.posted = b.loop.posted)
  | scheduled (flag : other.scheduler.stepPosted = true)
      (posted : other.loop.posted = b.loop.posted ++ if b.scheduler.stepPosted then [] else [.runStep])

theorem Posts.schedule (flag : c.scheduler.stepPosted = b.scheduler.stepPosted)
    (posted : c.loop.posted = b.loop.posted) : Posts b c.schedule := by
  refine .scheduled (by rw [scheduler_schedule]) ?_
  rw [posted_schedule, flag, posted]

theorem Posts.kept_after (posts : Posts b c) (eager : other.scheduler.Eager → c.scheduler.Eager)
    (flag : other.scheduler.stepPosted = c.scheduler.stepPosted)
    (posted : other.loop.posted = c.loop.posted) : Posts b other := by
  cases posts with
  | kept eager' flag' posted' =>
      exact .kept (eager' ∘ eager) (flag.trans flag') (posted.trans posted')
  | scheduled flag' posted' => exact .scheduled (flag.trans flag') (posted.trans posted')

theorem Pending.posts (pending : b.Pending batch) (posts : Posts b other) : other.Pending batch := by
  intro flag
  cases posts with
  | kept _ same posted =>
      rw [posted]
      exact pending (same.symm.trans flag)
  | scheduled _ posted =>
      rw [posted]
      cases counted : b.scheduler.stepPosted with
      | true => simpa using pending counted
      | false => simp

theorem Ready.posts (ready : b.Ready) (posts : Posts b other) : other.Ready := by
  intro eager
  cases posts with
  | kept before flag _ => exact flag.trans (ready (before eager))
  | scheduled flag => exact flag

end Bench

/-! ## What leaves a sleep alone -/

namespace Bench

variable {b c other : Bench (Journal σ)} {batch : List SimEvent} {event : Option SimEvent}

/-- Nothing that has to do with sleeps has changed. -/
structure Undisturbed (b other : Bench (Journal σ)) : Prop where
  slumber : other.scheduler.slumber = b.scheduler.slumber
  calls : other.rig.calls = b.rig.calls
  timers : Unarmed b other
  posts : Posts b other

namespace Undisturbed

theorem refl (b : Bench (Journal σ)) : Undisturbed b b :=
  ⟨rfl, rfl, unarmed_of_mem fun _ => id, .kept id rfl rfl⟩

theorem kept (same : Undisturbed b c) (slumber : other.scheduler.slumber = c.scheduler.slumber)
    (calls : other.rig.calls = c.rig.calls) (paused : other.scheduler.paused = c.scheduler.paused)
    (flag : other.scheduler.stepPosted = c.scheduler.stepPosted)
    (posted : other.loop.posted = c.loop.posted)
    (timers : ∀ t ∈ other.loop.timers, t ∈ c.loop.timers ∨ t.event.isSleep = false) :
    Undisturbed b other := by
  have eager (eager : other.scheduler.Eager) : c.scheduler.Eager :=
    ⟨(congrArg Slumber.running slumber).symm.trans eager.running, paused.symm.trans eager.active,
      (congrArg Slumber.last slumber).symm.trans eager.last⟩
  refine ⟨slumber.trans same.slumber, calls.trans same.calls, fun t member => ?_,
    same.posts.kept_after eager flag posted⟩
  rcases timers t member with inside | other
  · exact same.timers t inside
  · exact .inr other

theorem withRig (same : Undisturbed b c) {rig : Journal σ} (calls : rig.calls = c.rig.calls) :
    Undisturbed b { c with rig } :=
  same.kept rfl calls rfl rfl rfl fun _ => .inl

theorem startBlink (same : Undisturbed b c) : Undisturbed b c.startBlink := by
  refine same.kept rfl rfl rfl rfl (Ticker.posted_start _ _ _) fun t member => ?_
  exact (Ticker.mem_timers_start _ _ _ member).imp_right fun ticking => by rw [ticking]; rfl

theorem schedule (slumber : c.scheduler.slumber = b.scheduler.slumber)
    (calls : c.rig.calls = b.rig.calls) (flag : c.scheduler.stepPosted = b.scheduler.stepPosted)
    (loop : c.loop = b.loop) : Undisturbed b c.schedule := by
  refine ⟨?_, ?_, unarmed_of_mem fun t member => ?_, .schedule flag (by rw [loop])⟩
  · rw [scheduler_schedule, ← slumber]
    rfl
  · rw [rig_schedule, calls]
  · rwa [timers_schedule, loop] at member

theorem pause (b : Bench (Journal σ)) : Undisturbed b b.pause := by
  refine b.pause_cases ?paused ?ignored
  case paused =>
    exact fun _ => ⟨rfl, rfl, unarmed_of_mem fun _ => id, .kept (fun eager => nomatch eager.active) rfl rfl⟩
  case ignored => exact fun _ => refl b

theorem cont (b : Bench (Journal σ)) : Undisturbed b b.cont :=
  b.cont_cases (fun _ _ => schedule rfl rfl rfl rfl) fun _ => refl b

theorem provide [Engine σ] (b : Bench (Journal σ)) (values : List Answer) :
    Undisturbed b (b.provide values) :=
  b.provide_cases values (fun _ => schedule rfl rfl rfl rfl)
    fun _ => (refl b).withRig (Journal.keeps.foldl_release values b.rig)

section Device

variable [Device σ]

theorem keyDown (b : Bench (Journal σ)) (key : UInt8) : Undisturbed b (b.keyDown key) :=
  b.keyDown_cases key (fun _ _ _ => schedule rfl rfl rfl rfl) fun _ => (refl b).withRig rfl

theorem keyUp (b : Bench (Journal σ)) (key : UInt8) : Undisturbed b (b.keyUp key) := (refl b).withRig rfl

theorem repaintTick (b : Bench (Journal σ)) : Undisturbed b b.repaintTick.2 := by
  unfold Bench.repaintTick
  split
  · exact (refl b).withRig rfl
  · exact refl b

theorem blinkTick (b : Bench (Journal σ)) : Undisturbed b b.blinkTick := by
  unfold Bench.blinkTick
  split
  · exact (refl b).withRig rfl
  · exact refl b

theorem stopBlink (same : Undisturbed b c) : Undisturbed b c.stopBlink := by
  refine same.kept ?_ ?_ ?_ ?_ ?_ fun t member => ?_
  · rw [scheduler_stopBlink]
    rfl
  · rw [rig_stopBlink]
    split <;> rfl
  · rw [scheduler_stopBlink]
  · rw [scheduler_stopBlink]
  · rw [loop_stopBlink, Ticker.posted_stop]
  · rw [loop_stopBlink] at member
    exact .inl (Ticker.mem_timers_of_stop _ _ member)

end Device

end Undisturbed

/-- All that is seen of a batch is the call. -/
theorem notes_runBatch [Engine σ] (numbered : b.loop.Numbered) (same : Undisturbed b c) (resume : Resume) :
    notes (some .runStep) b (c.runBatch resume) =
      [.called (.exec resume (Engine.exec c.rig resume c.scheduler.batchSize).1)] := by
  have unarmed : Unarmed b (c.runBatch resume) := by
    intro t member
    rw [runBatch_eq, timers_schedule] at member
    exact same.timers t member
  refine notes_of_calls numbered [_] rfl unarmed ?_
  rw [rig_runBatch, ← same.calls]
  rfl

/-! ## What is a step of a slumber -/

/-- What is noted is a step of the slumber. -/
structure Passes (event : Option SimEvent) (b other : Bench (Journal σ)) : Prop where
  step : Slumber.Step (notes event b other) b.scheduler.slumber other.scheduler.slumber
  posts : Posts b other

namespace Passes

section

variable (numbered : b.loop.Numbered)

include numbered

theorem of_calls (new : List Call) (woken : wokenBy event b other = []) (unarmed : Unarmed b other)
    (calls : other.rig.calls = new ++ b.rig.calls)
    (step : Slumber.Step (new.map .called) b.scheduler.slumber other.scheduler.slumber)
    (posts : Posts b other) : Passes event b other := by
  refine ⟨?_, posts⟩
  rw [notes_of_calls numbered new woken unarmed calls]
  exact step

theorem undisturbed (undisturbed : Undisturbed b other) (woken : wokenBy event b other = []) :
    Passes event b other := by
  refine of_calls numbered [] woken undisturbed.timers undisturbed.calls ?_ undisturbed.posts
  rw [undisturbed.slumber]
  exact .kept _

theorem wake (generation : Nat) : Passes (some (.sleepElapsed generation)) b (b.wake generation) := by
  have woken (id : TimerId) (asleep : b.scheduler.sleep = some (id, generation)) {other : Bench (Journal σ)}
      (slumber : other.scheduler.slumber = { b.scheduler.slumber with last := .more, sleep := none })
      (calls : other.rig.calls = b.rig.calls) (timers : other.loop.timers = b.loop.timers)
      (posts : Posts b other) : Passes (some (.sleepElapsed generation)) b other := by
    refine ⟨?_, posts⟩
    rw [notes_of_woken numbered asleep (congrArg Slumber.sleep slumber) calls timers, slumber]
    exact .woke asleep
  refine b.wake_cases generation ?woken ?held ?stale
  case woken =>
    intro id asleep _ _
    refine woken id asleep ?_ ?_ ?_ (.schedule rfl rfl)
    · rw [scheduler_schedule]
      rfl
    · rw [rig_schedule]
    · rw [timers_schedule]
  case held =>
    intro id asleep halted
    exact woken id asleep rfl rfl rfl (.kept (fun eager => absurd eager (Scheduler.not_eager halted)) rfl rfl)
  case stale =>
    intro _
    exact undisturbed numbered (.refl b) (if_pos rfl)

theorem sleep (nanoseconds : UInt64) (running : b.scheduler.running = true)
    (last : b.scheduler.last = .sleep nanoseconds) :
    Passes (some .runStep) b (b.sleep nanoseconds) := by
  refine b.sleep_cases nanoseconds ?armed ?fresh
  case armed => exact fun _ _ => undisturbed numbered (.refl b) rfl
  case fresh =>
    intro delay awake
    have timers := b.loop.timers_singleShot delay (.sleepElapsed (b.scheduler.sleepGeneration + 1))
    refine ⟨?_, .kept (fun eager => ⟨eager.running, eager.active, eager.last⟩) rfl rfl⟩
    rw [notes, armedBy_eq numbered timers, calledBy_same]
    · exact Slumber.Step.armed (s := b.scheduler.slumber) running last awake b.loop.nextId
    · rfl

/-- A batch of a program that can go on and does not sleep. -/
theorem runBatch [Engine σ] (same : Undisturbed b c)
    (flag : c.scheduler.stepPosted = b.scheduler.stepPosted) (posted : c.loop.posted = b.loop.posted)
    (running : b.scheduler.running = true) (awake : ∀ nanoseconds, b.scheduler.last ≠ .sleep nanoseconds)
    (going : b.scheduler.last ≠ .done) (resume : Resume)
    (plain : b.scheduler.last = .more → resume = .nothing) :
    Passes (some .runStep) b (c.runBatch resume) := by
  have slumber : (c.runBatch resume).scheduler.slumber =
      { b.scheduler.slumber with last := (Engine.exec c.rig resume c.scheduler.batchSize).1 } := by
    rw [scheduler_runBatch, ← same.slumber]
    rfl
  refine ⟨?_, ?_⟩
  · rw [notes_runBatch numbered same, slumber]
    exact .ran running awake going resume plain _
  · rw [runBatch_eq]
    exact .schedule flag posted

/-- The caret goes before the batch that is given what it has waited for. -/
theorem runResumed [Engine σ] [Device σ] (same : Undisturbed b c)
    (flag : c.scheduler.stepPosted = b.scheduler.stepPosted) (posted : c.loop.posted = b.loop.posted)
    (running : b.scheduler.running = true) (awake : ∀ nanoseconds, b.scheduler.last ≠ .sleep nanoseconds)
    (going : b.scheduler.last ≠ .done) (waiting : b.scheduler.last ≠ .more) (resume : Resume) :
    Passes (some .runStep) b (c.stopBlink.runBatch resume) := by
  refine runBatch numbered same.stopBlink ?_ ?_ running awake going resume fun last => absurd last waiting
  · rw [scheduler_stopBlink, ← flag]
  · rw [loop_stopBlink, Ticker.posted_stop, posted]

variable [Engine σ] [Device σ]

theorem proceed (running : b.scheduler.running = true) : Passes (some .runStep) b b.proceed.2 := by
  have kept {rig : Journal σ} {key : Option UInt8} (taken : Device.takeKey b.rig = (key, rig)) :
      Undisturbed b { b with rig } := by
    have calls : (Device.takeKey b.rig).2.calls = b.rig.calls := rfl
    rw [taken] at calls
    exact (Undisturbed.refl b).withRig calls
  refine b.proceed_cases ?done ?more ?sleep ?keyless ?keyed ?asked ?prompting ?answered ?failed
  case done => exact fun _ => undisturbed numbered (.refl b) rfl
  case more =>
    intro last
    exact runBatch numbered (.refl b) rfl rfl running (by simp [last]) (by simp [last]) .nothing
      fun _ => rfl
  case sleep => exact fun nanoseconds last => sleep numbered nanoseconds running last
  case keyless => exact fun rig _ missed => undisturbed numbered (kept missed).startBlink rfl
  case keyed =>
    intro key rig last taken
    exact runResumed numbered (kept taken) rfl rfl running (by simp [last]) (by simp [last])
      (by simp [last]) (.key key)
  case asked =>
    intro request _ _
    refine undisturbed numbered ?_ rfl
    exact (Undisturbed.refl b).startBlink.kept rfl rfl rfl rfl rfl fun _ => .inl
  case prompting => exact fun _ _ _ => undisturbed numbered (.refl b) rfl
  case answered =>
    intro request values last _
    have same : Undisturbed b { b with scheduler.inputState := .idle } :=
      (Undisturbed.refl b).kept rfl rfl rfl rfl rfl fun _ => .inl
    exact runResumed numbered same rfl rfl running (by simp [last]) (by simp [last]) (by simp [last])
      (.answers values)
  case failed =>
    intro fault last
    refine of_calls numbered [] rfl (unarmed_of_mem fun _ => id) rfl ?_ ?_
    · exact Slumber.Step.failed (s := b.scheduler.slumber) last
    · exact .kept (fun eager => nomatch eager.last) rfl rfl

theorem start : Passes none b b.start := by
  obtain ⟨repaint, blink, restarted⟩ := b.exists_scheduler_restarted
  have calls : b.start.rig.calls = [.reset] ++ b.rig.calls := by
    rw [start_eq, rig_schedule, rig_restarted]
    split <;> rfl
  have unarmed : Unarmed b b.start := by
    intro t member
    rw [start_eq, timers_schedule] at member
    rcases b.mem_timers_of_restarted member with inside | painting
    · exact .inl ⟨t, inside, rfl⟩
    · exact .inr (by rw [painting]; rfl)
  have slumber : b.start.scheduler.slumber = ⟨true, .more, none, b.scheduler.sleepGeneration⟩ := by
    rw [start_eq, scheduler_schedule, restarted]
    rfl
  refine of_calls numbered [_] rfl unarmed calls ?_ ?_
  · rw [slumber]
    exact Slumber.Step.begun b.scheduler.slumber
  · rw [start_eq]
    exact .schedule (by rw [restarted]) b.posted_restarted

theorem stop : Passes none b b.stop.2 := by
  obtain ⟨repaint, blink, stopped⟩ := b.exists_scheduler_stop
  have slumber : b.stop.2.scheduler.slumber = ⟨false, .done, none, b.scheduler.sleepGeneration⟩ := by
    rw [stopped]
    rfl
  have unarmed : Unarmed b b.stop.2 := unarmed_of_mem fun t => b.mem_timers_of_stop
  have posts : Posts b b.stop.2 := by
    refine .kept (fun eager => ?_) (by rw [stopped]) b.posted_stop
    have running := eager.running
    rw [stopped] at running
    cases running
  have entered := b.calls_stop
  by_cases ended : b.scheduler.last = .done
  · rw [if_pos ended] at entered
    refine of_calls numbered [] rfl unarmed entered ?_ posts
    rw [slumber]
    exact Slumber.Step.finished (s := b.scheduler.slumber) ended
  · rw [if_neg ended] at entered
    refine of_calls numbered [.stop] rfl unarmed entered ?_ posts
    rw [slumber]
    exact Slumber.Step.stopped (s := b.scheduler.slumber) ended

end

end Passes

/-! ## Steps, and what else is handled -/

section Handle

variable [Engine σ] [Device σ] (numbered : b.loop.Numbered)

include numbered

/-- The flag goes with the step that is taken, so nothing is said about steps here. -/
theorem slumber_step :
    Slumber.Step (notes (some .runStep) b b.step.2) b.scheduler.slumber b.step.2.scheduler.slumber := by
  have taken : b.taken.loop.Numbered := numbered
  refine b.step_cases ?active ?halted
  case active => exact fun running _ => (Passes.proceed taken running).step
  case halted =>
    have idle : Passes (some .runStep) b.taken b.taken := .undisturbed taken (.refl b.taken) rfl
    exact fun _ => idle.step

theorem passes_handle {event : SimEvent} (other : event ≠ .runStep) :
    Passes (some event) b (b.handle event) := by
  cases event with
  | runStep => exact absurd rfl other
  | sleepElapsed generation => exact .wake numbered generation
  | repaintTick => exact .undisturbed numbered (.repaintTick b) rfl
  | cursorTick => exact .undisturbed numbered (.blinkTick b) rfl
  | keyRelease code => exact .undisturbed numbered (.keyUp b code) rfl

theorem slumber_handle (event : SimEvent) :
    Slumber.Step (notes (some event) b (b.handle event)) b.scheduler.slumber
      (b.handle event).scheduler.slumber := by
  by_cases step : event = .runStep
  · subst step
    exact slumber_step numbered
  · exact (passes_handle numbered step).step

/-- A step leaves another one on its way if the program can go on at once. -/
theorem ready_step : b.step.2.Ready := by
  have taken : b.taken.loop.Numbered := numbered
  refine b.step_cases ?active ?halted
  case active =>
    intro running _ eager
    cases (Passes.proceed taken running).posts with
    | scheduled flag => exact flag
    | kept before =>
        -- Of all that a step can do only a batch follows on a last outcome that lets the program go on.
        have last : b.taken.scheduler.last = .more := (before eager).last
        simp only [Bench.proceed, last, scheduler_runBatch]
  case halted => exact fun halted eager => absurd eager (Scheduler.not_eager halted)

theorem pending_step : b.step.2.Pending batch := by
  have taken : b.taken.loop.Numbered := numbered
  have none : b.taken.Pending batch := nofun
  refine b.step_cases ?active ?halted
  case active => exact fun running _ => none.posts (Passes.proceed taken running).posts
  case halted => exact fun _ => none

end Handle

end Bench

end PocketBasic
