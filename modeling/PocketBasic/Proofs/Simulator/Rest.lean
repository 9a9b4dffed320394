import PocketBasic.Proofs.Simulator.Live
import PocketBasic.Proofs.Simulator.Recorder
import PocketBasic.Proofs.Simulator.Sampling

/-! # Programs at rest

A program rests while it is paused, and once it has been stopped. Its scheduler still gets keys, answers,
ticks and steps that were under way, but nothing that shows comes of them: no batch is run and the picture
stays. What a pause leaves open is what an answer or the end of a sleep will mean to a program that goes
on; after a stop there is nothing left to go on.
-/

namespace PocketBasic

/-- A device whose caret can be told from its picture. Keys and values do not change what is to be seen. -/
class Pictured (σ : Type) [Engine σ] [Device σ] where
  Caret : Type
  caret : σ → Caret
  pixel_keyDown : ∀ (rig : σ) (key : UInt8), Device.pixel (Device.keyDown rig key) = Device.pixel rig
  caret_keyDown : ∀ (rig : σ) (key : UInt8), caret (Device.keyDown rig key) = caret rig
  pixel_keyUp : ∀ (rig : σ) (key : UInt8), Device.pixel (Device.keyUp rig key) = Device.pixel rig
  caret_keyUp : ∀ (rig : σ) (key : UInt8), caret (Device.keyUp rig key) = caret rig
  pixel_takeDirty : ∀ rig : σ, Device.pixel (Device.takeDirty rig).2 = Device.pixel rig
  caret_takeDirty : ∀ rig : σ, caret (Device.takeDirty rig).2 = caret rig
  pixel_release : ∀ (rig : σ) (value : Answer),
    Device.pixel (Engine.release rig value) = Device.pixel rig
  caret_release : ∀ (rig : σ) (value : Answer), caret (Engine.release rig value) = caret rig

/-- Whether the caret is on the screen, and where it is. -/
instance : Pictured Computer where
  Caret := Bool × Nat × Nat
  caret c := (c.handset.caretShown, c.handset.cursorX, c.handset.cursorY)
  pixel_keyDown _ _ := rfl
  caret_keyDown _ _ := rfl
  pixel_keyUp _ _ := rfl
  caret_keyUp _ _ := rfl
  pixel_takeDirty _ := rfl
  caret_takeDirty _ := rfl
  pixel_release _ _ := rfl
  caret_release _ _ := rfl

/-- How often the caret was blinked and how often it was hidden. -/
instance : Pictured Playback where
  Caret := Nat × Nat
  caret p := (p.device.blinks, p.device.hides)
  pixel_keyDown _ _ := rfl
  caret_keyDown _ _ := rfl
  pixel_keyUp _ _ := rfl
  caret_keyUp _ _ := rfl
  pixel_takeDirty _ := rfl
  caret_takeDirty _ := rfl
  pixel_release _ _ := rfl
  caret_release _ _ := rfl

variable {σ : Type}

/-! ## The rig of a program at rest -/

section Rig

variable [Engine σ] [Device σ]

/-- What is done to a rig while its program rests. -/
inductive AtRest : σ → σ → Prop where
  | refl (rig : σ) : AtRest rig rig
  | trans {first second third : σ} : AtRest first second → AtRest second third → AtRest first third
  | keyDown (rig : σ) (key : UInt8) : AtRest rig (Device.keyDown rig key)
  | keyUp (rig : σ) (key : UInt8) : AtRest rig (Device.keyUp rig key)
  | takeDirty (rig : σ) : AtRest rig (Device.takeDirty rig).2
  | release (rig : σ) (value : Answer) : AtRest rig (Engine.release rig value)

namespace AtRest

theorem releaseAll (rig : σ) (values : List Answer) :
    AtRest rig (values.foldl Engine.release rig) := by
  induction values generalizing rig with
  | nil => exact .refl rig
  | cons value rest ih => exact .trans (.release rig value) (ih _)

/-- An observation that none of these operations changes is the same after all of them. -/
theorem kept {α : Type} {f : σ → α} {rig other : σ} (rest : AtRest rig other)
    (keyDown : ∀ rig key, f (Device.keyDown rig key) = f rig)
    (keyUp : ∀ rig key, f (Device.keyUp rig key) = f rig)
    (takeDirty : ∀ rig, f (Device.takeDirty rig).2 = f rig)
    (release : ∀ rig value, f (Engine.release rig value) = f rig) : f other = f rig := by
  induction rest with
  | refl rig => rfl
  | trans _ _ first second => rw [second, first]
  | keyDown rig key => exact keyDown rig key
  | keyUp rig key => exact keyUp rig key
  | takeDirty rig => exact takeDirty rig
  | release rig value => exact release rig value

variable [KeyQueue σ] {rig other : Recorder σ}

theorem log (rest : AtRest rig other) : other.log = rig.log :=
  rest.kept (fun _ _ => rfl) (fun _ _ => rfl) (fun _ => rfl) (fun _ _ => rfl)

variable [Pictured σ]

theorem pixel (rest : AtRest rig other) : Device.pixel other.rig = Device.pixel rig.rig :=
  rest.kept (f := fun rig => Device.pixel rig.rig)
    (fun rig => Pictured.pixel_keyDown rig.rig) (fun rig => Pictured.pixel_keyUp rig.rig)
    (fun rig => Pictured.pixel_takeDirty rig.rig) (fun rig => Pictured.pixel_release rig.rig)

theorem caret (rest : AtRest rig other) : Pictured.caret other.rig = Pictured.caret rig.rig :=
  rest.kept (f := fun rig => Pictured.caret rig.rig)
    (fun rig => Pictured.caret_keyDown rig.rig) (fun rig => Pictured.caret_keyUp rig.rig)
    (fun rig => Pictured.caret_takeDirty rig.rig) (fun rig => Pictured.caret_release rig.rig)

end AtRest

end Rig

/-! ## The scheduler of a program at rest -/

namespace Scheduler

/-- Nothing is left of a run. -/
structure Off (s : Scheduler) : Prop where
  running : s.running = false
  last : s.last = .done
  awake : s.sleep = none
  idle : s.inputState = .idle
  still : s.blink.isActive = false

/-- The program is paused, or nothing of it is left. -/
inductive Rests (s : Scheduler) : Prop where
  | paused (running : s.running = true) (paused : s.paused = true)
  | off (off : s.Off)

namespace Off

variable {s other : Scheduler}

theorem ofSettings (settings : SimulatorSettings) : (Scheduler.ofSettings settings).Off :=
  ⟨rfl, rfl, rfl, rfl, rfl⟩

theorem of_same (off : s.Off) (running : other.running = s.running) (last : other.last = s.last)
    (sleep : other.sleep = s.sleep) (inputState : other.inputState = s.inputState)
    (blink : other.blink = s.blink) : other.Off :=
  ⟨running.trans off.running, last.trans off.last, sleep.trans off.awake,
    inputState.trans off.idle, by rw [blink]; exact off.still⟩

end Off

theorem Rests.halted {s : Scheduler} (rests : s.Rests) : (s.running && !s.paused) = false := by
  cases rests with
  | paused _ paused => rw [paused, Bool.not_true, Bool.and_false]
  | off off => rw [off.running, Bool.false_and]

/-- How the last batch has ended once the events are handled at rest. The end of the sleep under way is the
    only one that matters. -/
def lastAfter (s : Scheduler) (handled : List SimEvent) : Outcome :=
  match s.sleep with
  | some (_, generation) => if .sleepElapsed generation ∈ handled then .more else s.last
  | none => s.last

theorem lastAfter_nil (s : Scheduler) : s.lastAfter [] = s.last := by
  unfold lastAfter
  split <;> rfl

end Scheduler

namespace Bench

variable {b : Bench σ}

variable [Engine σ] [Device σ]

theorem off_stop (b : Bench σ) : b.stop.2.scheduler.Off := by
  refine ⟨?_, ?_, ?_, ?_, ?_⟩
  all_goals
    simp [stop_eq, quietened]

/-- All that an event does while the program does not go on. -/
@[elab_as_elim]
theorem handle_halted_cases {motive : Bench σ → Prop}
    (halted : (b.scheduler.running && !b.scheduler.paused) = false) (event : SimEvent)
    (taken : event = .runStep → motive b.taken)
    (awoken : ∀ id generation, event = .sleepElapsed generation →
      b.scheduler.sleep = some (id, generation) →
      motive { b with scheduler.sleep := none, scheduler.last := .more })
    (sampled : event = .repaintTick → motive { b with rig := (Device.takeDirty b.rig).2 })
    (blinked : event = .cursorTick → b.scheduler.blink.isActive = true →
      b.scheduler.paused = false → motive { b with rig := Device.blink b.rig })
    (lifted : ∀ code, event = .keyRelease code → motive { b with rig := Device.keyUp b.rig code })
    (kept : (∀ id generation, b.scheduler.sleep = some (id, generation) →
      event ≠ .sleepElapsed generation) → motive b) :
    motive (b.handle event) := by
  cases event with
  | runStep =>
      simp only [handle, step_eq, halted, Bool.false_eq_true, if_false]
      exact taken rfl
  | sleepElapsed generation =>
      change motive (b.wake generation)
      refine b.wake_cases generation ?woken ?held ?stale
      case woken =>
        intro id _ running active
        rw [running, active] at halted
        cases halted
      case held => exact fun id asleep _ => awoken id generation rfl asleep
      case stale =>
        intro stale
        refine kept fun id armed asleep same => ?_
        cases same
        exact stale id asleep
  | repaintTick =>
      simp only [handle, repaintTick]
      split
      · exact sampled rfl
      · exact kept fun _ _ _ => SimEvent.noConfusion
  | cursorTick =>
      simp only [handle, blinkTick]
      split
      · rename_i both
        simp only [Bool.and_eq_true, Bool.not_eq_true'] at both
        exact blinked rfl both.1 both.2
      · exact kept fun _ _ _ => SimEvent.noConfusion
  | keyRelease code => exact lifted code rfl

end Bench

variable [Engine σ] [Device σ]

/-- What becomes of a bench at rest when an event is handled, or when something else happens to it. -/
structure Bench.Rested (event : Option SimEvent) (b other : Bench σ) : Prop where
  rests : other.scheduler.Rests
  rig : AtRest b.rig other.rig
  last : ∀ later, other.scheduler.lastAfter later = b.scheduler.lastAfter (event.toList ++ later)
  off : b.scheduler.Off → other.scheduler.Off ∧ other.loop.posted = b.loop.posted

namespace Bench

variable {b other : Bench σ} {event : Option SimEvent}

/-- Whatever does not end the sleep under way leaves the last outcome as it is. -/
theorem rested_of_same (rests : b.scheduler.Rests)
    (running : other.scheduler.running = b.scheduler.running)
    (paused : other.scheduler.paused = b.scheduler.paused)
    (sleep : other.scheduler.sleep = b.scheduler.sleep)
    (last : other.scheduler.last = b.scheduler.last) (rig : AtRest b.rig other.rig)
    (stale : ∀ id generation, b.scheduler.sleep = some (id, generation) →
      event ≠ some (.sleepElapsed generation))
    (off : b.scheduler.Off → other.scheduler.Off ∧ other.loop.posted = b.loop.posted) :
    Rested event b other := by
  refine ⟨?_, rig, fun later => ?_, off⟩
  · cases rests with
    | paused runs halted => exact .paused (running.trans runs) (paused.trans halted)
    | off idle => exact .off (off idle).1
  · unfold Scheduler.lastAfter
    rw [sleep, last]
    cases asleep : b.scheduler.sleep with
    | none => rfl
    | some timer =>
        have other := stale timer.1 timer.2 asleep
        cases event with
        | none => rfl
        | some event =>
            have differ : SimEvent.sleepElapsed timer.2 ≠ event := fun same => other (by rw [same])
            simp [differ]

/-- Only the rig has changed. -/
theorem rested_of_rig (rests : b.scheduler.Rests) {rig : σ} (rest : AtRest b.rig rig)
    (stale : ∀ id generation, b.scheduler.sleep = some (id, generation) →
      event ≠ some (.sleepElapsed generation)) : Rested event b { b with rig } :=
  rested_of_same rests rfl rfl rfl rfl rest stale fun off => ⟨off, rfl⟩

theorem rested_handle (rests : b.scheduler.Rests) (event : SimEvent) :
    Rested (some event) b (b.handle event) := by
  refine handle_halted_cases rests.halted event ?taken ?awoken ?sampled ?blinked ?lifted ?kept
  case taken =>
    rintro rfl
    exact rested_of_same rests rfl rfl rfl rfl (.refl b.rig) (fun _ _ _ same => by cases same)
      fun off => ⟨off.of_same rfl rfl rfl rfl rfl, rfl⟩
  case awoken =>
    rintro id generation rfl asleep
    cases rests with
    | off off =>
        rw [off.awake] at asleep
        cases asleep
    | paused running paused =>
        refine ⟨.paused running paused, .refl b.rig, fun later => ?_, fun off => ?_⟩
        · simp [Scheduler.lastAfter, asleep]
        · rw [off.awake] at asleep
          cases asleep
  case sampled =>
    rintro rfl
    exact rested_of_rig rests (.takeDirty b.rig) fun _ _ _ same => by cases same
  case blinked =>
    intro _ blinking active
    cases rests with
    | off off =>
        rw [off.still] at blinking
        cases blinking
    | paused _ paused =>
        rw [paused] at active
        cases active
  case lifted =>
    rintro code rfl
    exact rested_of_rig rests (.keyUp b.rig code) fun _ _ _ same => by cases same
  case kept =>
    intro stale
    exact rested_of_rig rests (.refl b.rig) fun id generation asleep same =>
      stale id generation asleep (Option.some.inj same)

/-- The answer of an open dialog is kept for when the program goes on. -/
theorem rested_provide (rests : b.scheduler.Rests) (values : List Answer) :
    Rested none b (b.provide values) := by
  have stale (id : TimerId) (generation : Nat) (_ : b.scheduler.sleep = some (id, generation)) :
      none ≠ some (SimEvent.sleepElapsed generation) := nofun
  refine b.provide_cases values ?accepted ?refused
  case accepted =>
    intro prompting
    refine rested_of_same rests ?_ ?_ ?_ ?_ ?_ stale fun off => ?_
    · rw [scheduler_schedule]
    · rw [scheduler_schedule]
    · rw [scheduler_schedule]
    · rw [scheduler_schedule]
    · rw [rig_schedule]
      exact .refl b.rig
    · rw [off.idle] at prompting
      cases prompting
  case refused =>
    intro _
    exact rested_of_rig rests (.releaseAll b.rig values) stale

theorem rested_keyDown (rests : b.scheduler.Rests) (key : UInt8) :
    Rested none b (b.keyDown key) := by
  refine b.keyDown_cases key ?resumed ?buffered
  case resumed =>
    intro running active _
    have halted := rests.halted
    rw [running, active] at halted
    cases halted
  case buffered =>
    intro _
    exact rested_of_rig rests (.keyDown b.rig key) fun _ _ _ => nofun

theorem rested_pause (rests : b.scheduler.Rests) : Rested none b b.pause := by
  refine b.pause_cases ?paused ?ignored
  case paused =>
    intro running
    refine ⟨.paused running rfl, .refl b.rig, fun _ => rfl, fun off => ?_⟩
    rw [off.running] at running
    cases running
  case ignored =>
    intro _
    exact rested_of_rig rests (.refl b.rig) fun _ _ _ => nofun

/-- A step of a program at rest comes to nothing. -/
theorem idle_of_rests (rests : b.scheduler.Rests) : b.step.1 = .idle := by
  rw [step_eq, rests.halted]
  rfl

end Bench

/-! ## Rounds -/

/-- The ways to bring a program to rest. -/
inductive Halt where
  | pause
  | stop
  deriving Repr, DecidableEq

def Halt.act : Halt → Act
  | .pause => .move .pause
  | .stop => .stop

namespace Round

/-- The event that a move handles. -/
def handling (r : Round σ) : Move → Option SimEvent
  | .next => r.batch.head?
  | .stray event => some event
  | _ => none

/-- The events that are handled while the moves are made. -/
def handled (r : Round σ) : List Move → List SimEvent
  | [] => []
  | m :: ms => (r.handling m).toList ++ (r.move m).handled ms

/-- What becomes of a round at rest while the moves are made. -/
structure Rested (ms : List Move) (r other : Round σ) : Prop where
  rests : other.bench.scheduler.Rests
  rig : AtRest r.bench.rig other.bench.rig
  last : ∀ later,
    other.bench.scheduler.lastAfter later = r.bench.scheduler.lastAfter (r.handled ms ++ later)
  off : r.bench.scheduler.Off → other.bench.scheduler.Off ∧
    other.bench.loop.posted = if .drain ∈ ms then [] else r.bench.loop.posted

variable {r : Round σ}

/-- Only a drain takes from the loop. -/
theorem rested_of_bench {m : Move} (rested : Bench.Rested (r.handling m) r.bench (r.move m).bench)
    (other : m ≠ .drain) : Rested [m] r (r.move m) := by
  refine ⟨rested.rests, rested.rig, fun later => ?_, fun off => ?_⟩
  · rw [handled, handled, List.append_nil]
    exact rested.last later
  · rw [if_neg (by simp [other.symm])]
    exact rested.off off

theorem rested_move (rests : r.bench.scheduler.Rests) {m : Move} (resting : m ≠ .cont) :
    Rested [m] r (r.move m) := by
  have same {loop : EventLoop SimEvent} (posted : loop.posted = r.bench.loop.posted) :
      Bench.Rested none r.bench { r.bench with loop } :=
    Bench.rested_of_same rests rfl rfl rfl rfl (.refl r.bench.rig) (fun _ _ _ => nofun)
      fun off => ⟨off, posted⟩
  cases m with
  | pause => exact rested_of_bench (Bench.rested_pause rests) Move.noConfusion
  | cont => exact absurd rfl resting
  | press key => exact rested_of_bench (Bench.rested_keyDown rests key) Move.noConfusion
  | lift key =>
      exact rested_of_bench (Bench.rested_of_rig rests (.keyUp r.bench.rig key) fun _ _ _ => nofun)
        Move.noConfusion
  | liftLater delay key => exact rested_of_bench (same rfl) Move.noConfusion
  | provide values => exact rested_of_bench (Bench.rested_provide rests values) Move.noConfusion
  | advance ms => exact rested_of_bench (same rfl) Move.noConfusion
  | drain => exact ⟨rests, .refl r.bench.rig, fun _ => rfl, fun off => ⟨off, rfl⟩⟩
  | next =>
      obtain ⟨b, batch⟩ := r
      cases batch with
      | nil =>
          exact rested_of_bench (Bench.rested_of_rig rests (.refl b.rig) fun _ _ _ => nofun)
            Move.noConfusion
      | cons event rest => exact rested_of_bench (Bench.rested_handle rests event) Move.noConfusion
  | stray event => exact rested_of_bench (Bench.rested_handle rests event) Move.noConfusion

theorem rested_moves (rests : r.bench.scheduler.Rests) {ms : List Move} (resting : .cont ∉ ms) :
    Rested ms r (r.moves ms) := by
  induction ms generalizing r with
  | nil => exact ⟨rests, .refl r.bench.rig, fun _ => rfl, fun off => ⟨off, rfl⟩⟩
  | cons m ms ih =>
      simp only [List.mem_cons, not_or] at resting
      have first := rested_move rests (Ne.symm resting.1)
      have rest := ih first.rests resting.2
      refine ⟨rest.rests, first.rig.trans rest.rig, fun later => ?_, fun off => ?_⟩
      · have moved := first.last ((r.move m).handled ms ++ later)
        simp only [handled, List.append_nil] at moved
        simp only [moves, List.foldl_cons, handled, List.append_assoc]
        exact (rest.last later).trans moved
      · obtain ⟨still, posted⟩ := first.off off
        refine ⟨(rest.off still).1, (rest.off still).2.trans ?_⟩
        rw [posted]
        by_cases drained : m = .drain
        · simp [drained]
        · simp [Ne.symm drained]

/-- Nothing is left of a program that does not run. -/
def Tidy (r : Round σ) : Prop := r.bench.scheduler.running = false → r.bench.scheduler.Off

/-- A move neither starts nor ends a run. -/
theorem running_move (r : Round σ) (m : Move) :
    (r.move m).bench.scheduler.running = r.bench.scheduler.running := by
  cases m with
  | pause =>
      simp only [move]
      exact r.bench.pause_cases (fun _ => rfl) fun _ => rfl
  | cont =>
      simp only [move]
      refine r.bench.cont_cases (fun _ _ => ?_) fun _ => rfl
      rw [Bench.scheduler_schedule]
  | press key => exact (r.bench.flags_keyDown key).1
  | provide values => exact (r.bench.flags_provide values).1
  | lift | liftLater | advance | drain => rfl
  | next => exact r.bench_next_cases rfl fun event => (r.bench.flags_handle event).1
  | stray event => exact (r.bench.flags_handle event).1

theorem Tidy.act (tidy : r.Tidy) (a : Act) : (r.act a).Tidy := by
  intro halted
  cases a with
  | start =>
      obtain ⟨repaint, blink, restarted⟩ := r.bench.exists_scheduler_restarted
      rw [Round.act, Bench.start_eq, Bench.scheduler_schedule, restarted] at halted
      cases halted
  | stop => exact Bench.off_stop r.bench
  | move m =>
      have off : r.bench.scheduler.Off := tidy ((r.running_move m).symm.trans halted)
      by_cases continued : m = .cont
      · subst continued
        have ignored : r.bench.cont = r.bench := by
          refine r.bench.cont_cases (fun running _ => ?_) fun _ => rfl
          rw [off.running] at running
          cases running
        rw [Round.act, Round.move, ignored]
        exact off
      · exact ((rested_move (.off off) continued).off off).1

theorem Tidy.acts (tidy : r.Tidy) (as : List Act) : (r.acts as).Tidy := by
  induction as generalizing r with
  | nil => exact tidy
  | cons a rest ih => exact ih (tidy.act a)

theorem coherent_acts (coherent : r.bench.scheduler.Coherent) (as : List Act) :
    (r.acts as).bench.scheduler.Coherent := by
  induction as generalizing r with
  | nil => exact coherent
  | cons a rest ih => exact ih (coherent.act a)

theorem rests_pause (tidy : r.Tidy) : (r.act (.move .pause)).bench.scheduler.Rests := by
  simp only [Round.act, move]
  refine r.bench.pause_cases ?paused ?ignored
  case paused => exact fun running => .paused running rfl
  case ignored => exact fun halted => .off (tidy halted)

variable [KeyQueue σ] [Pictured σ]

/-- Whatever has happened to a scheduler before, and whatever is left on the loop: from a pause or a stop
    on, until the program is continued or started again, no batch is run, the picture and the caret stay,
    every step is idle, and the last outcome stays but for a sleep whose end is handled. After a stop
    nothing is left to wake up, and nothing is posted. -/
theorem at_rest_until_continued (settings : SimulatorSettings) (rig : σ) (loop : EventLoop SimEvent)
    (batch : List SimEvent) (as : List Act) (halt : Halt) (ms : List Move) (resting : .cont ∉ ms) :
    let opened : Round (Recorder σ) := ⟨⟨.ofSettings settings, ⟨rig, []⟩, loop⟩, batch⟩
    let r := (opened.acts as).act halt.act
    let s := r.moves ms
    s.bench.rig.log = r.bench.rig.log ∧
      Device.pixel s.bench.rig.rig = Device.pixel r.bench.rig.rig ∧
      Pictured.caret s.bench.rig.rig = Pictured.caret r.bench.rig.rig ∧
      s.bench.scheduler.last = r.bench.scheduler.lastAfter (r.handled ms) ∧
      (∀ timer, r.bench.scheduler.sleep = some timer →
        ∃ nanoseconds, r.bench.scheduler.last = .sleep nanoseconds) ∧
      s.bench.step.1 = .idle ∧
      (halt = .stop → s.bench.scheduler.last = .done ∧
        s.bench.loop.posted = if .drain ∈ ms then [] else r.bench.loop.posted) := by
  intro opened r s
  have fresh : opened.Tidy := fun _ => .ofSettings settings
  have coherent : (opened.acts as).bench.scheduler.Coherent := coherent_acts (.of_idle rfl rfl) as
  have rests : r.bench.scheduler.Rests := by
    cases halt with
    | pause => exact rests_pause (fresh.acts as)
    | stop => exact .off (Bench.off_stop _)
  have rested : Rested ms r s := rested_moves rests resting
  have last := rested.last []
  rw [Scheduler.lastAfter_nil, List.append_nil] at last
  refine ⟨rested.rig.log, rested.rig.pixel, rested.rig.caret, last, (coherent.act halt.act).asleep,
    Bench.idle_of_rests rested.rests, ?_⟩
  rintro rfl
  obtain ⟨off, posted⟩ := rested.off (Bench.off_stop _)
  exact ⟨off.last, posted⟩

/-- A program that is paused while it sleeps. A key, a tick and an old step come to nothing; the end of the
    sleep is all that is noted. -/
theorem at_rest_until_continued_asleep :
    let rig : Playback := ⟨.ofResults [.sleep 3000000], .ofLit []⟩
    let step : Act := .move (.stray .runStep)
    let opened : Round (Recorder Playback) := ⟨⟨.ofSettings .standard, ⟨rig, []⟩, .empty⟩, []⟩
    let r := (opened.acts [.start, step, step]).act Halt.pause.act
    let ms : List Move :=
      [.press 65, .stray .runStep, .stray .repaintTick, .stray (.sleepElapsed 1), .stray .cursorTick]
    let s := r.moves ms
    .cont ∉ ms ∧ s.bench.step.1 = .idle ∧
      s.bench.rig.log = [.ran .nothing (.sleep 3000000), .begun] ∧
      r.bench.scheduler.last = .sleep 3000000 ∧ s.bench.scheduler.last = .more := by
  intro rig step opened r ms s
  have resting : .cont ∉ ms := by decide
  have rests := at_rest_until_continued .standard rig .empty [] [.start, step, step] .pause ms resting
  exact ⟨resting, rests.2.2.2.2.2.1, by decide +kernel, by decide +kernel, by decide +kernel⟩

end Round

end PocketBasic
