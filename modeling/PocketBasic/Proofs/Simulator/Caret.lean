import PocketBasic.Proofs.Program.Drawing
import PocketBasic.Proofs.Simulator.Rest

/-! # The caret of a waiting program

The scheduler blinks the caret while the program waits for the keyboard, and the handset knows whether the
caret is on the screen. Neither asks the other. They agree because the blinking stops, and takes the
caret off with it, before anything else is done to the handset; so a batch draws on the picture of the one
before, and no pixel of a caret stays.
-/

namespace PocketBasic

/-- A rig whose device is a handset. The engine leaves it alone but for what a batch draws, and that is
    no caret. -/
class OnHandset (σ : Type) [Engine σ] [Device σ] where
  handset : σ → Handset
  keeps : Engine.Keeps handset
  handset_stop : ∀ rig : σ, handset (Engine.stop rig).2 = handset rig
  hidden_exec : ∀ (rig : σ) (resume : Resume) (budget : Nat), (handset rig).caretShown = false →
    (handset (Engine.exec rig resume budget).2).caretShown = false
  handset_restart : ∀ rig : σ, handset (Device.restart rig) = (handset rig).restart
  handset_takeKey : ∀ rig : σ, handset (Device.takeKey rig).2 = (handset rig).takeKey.2
  handset_keyDown : ∀ (rig : σ) (key : UInt8), handset (Device.keyDown rig key) = (handset rig).keyDown key
  handset_keyUp : ∀ (rig : σ) (key : UInt8), handset (Device.keyUp rig key) = (handset rig).keyUp key
  handset_blink : ∀ rig : σ, handset (Device.blink rig) = (handset rig).blink
  handset_hideCaret : ∀ rig : σ, handset (Device.hideCaret rig) = (handset rig).hideCaret
  handset_takeDirty : ∀ rig : σ, handset (Device.takeDirty rig).2 = (handset rig).takeDirty.2
  pixel_eq : ∀ rig : σ, Device.pixel rig = (handset rig).pixel

instance : OnHandset Computer where
  handset := Computer.handset
  keeps := ⟨fun _ _ => rfl, fun _ _ => rfl, fun _ _ => rfl⟩
  handset_stop _ := rfl
  hidden_exec c resume budget hidden := Handset.drawing_hidden.exec c.run resume budget hidden
  handset_restart _ := rfl
  handset_takeKey _ := rfl
  handset_keyDown _ _ := rfl
  handset_keyUp _ _ := rfl
  handset_blink _ := rfl
  handset_hideCaret _ := rfl
  handset_takeDirty _ := rfl
  pixel_eq _ := rfl

/-- The program waits for a key or for answers. -/
def Outcome.AsksKeyboard (outcome : Outcome) : Prop :=
  outcome = .key ∨ ∃ request, outcome = .input request

namespace Bench

variable {σ : Type} (b : Bench σ)

theorem rig_pause : b.pause.rig = b.rig :=
  b.pause_cases (fun _ => rfl) fun _ => rfl

theorem rig_cont : b.cont.rig = b.rig := by
  refine b.cont_cases (fun _ _ => ?_) fun _ => rfl
  rw [rig_schedule]

theorem rig_wake (generation : Nat) : (b.wake generation).rig = b.rig := by
  refine b.wake_cases generation (fun _ _ _ _ => ?_) (fun _ _ _ => rfl) fun _ => rfl
  rw [rig_schedule]

end Bench

variable {σ : Type} [Engine σ] [Device σ] [OnHandset σ]

open OnHandset

/-- The caret is on the screen. -/
def CaretShown (rig : σ) : Prop := (handset rig).caretShown = true

/-- The screen without the caret. -/
def picture (rig : σ) : Bitmap := (handset rig).picture

/-- The caret blinks only while the program waits for the keyboard, and is on the screen only while it
    blinks. -/
structure Bench.CaretBlinks (b : Bench σ) : Prop where
  asked : b.scheduler.blink.isActive = true →
    b.scheduler.running = true ∧ b.scheduler.last.AsksKeyboard
  blinking : CaretShown b.rig → b.scheduler.blink.isActive = true

theorem not_caretShown_exec {rig : σ} (hidden : ¬CaretShown rig) (resume : Resume) (budget : Nat) :
    ¬CaretShown (Engine.exec rig resume budget).2 :=
  Bool.eq_false_iff.mp (hidden_exec rig resume budget (Bool.eq_false_iff.mpr hidden))

theorem pixel_of_hidden {rig : σ} (hidden : ¬CaretShown rig) : Device.pixel rig = (picture rig).pixel := by
  rw [pixel_eq, picture, Handset.picture_of_hidden (Bool.eq_false_iff.mpr hidden)]
  rfl

/-! ## The picture -/

@[simp] theorem picture_takeKey (rig : σ) : picture (Device.takeKey rig).2 = picture rig := by
  rw [picture, handset_takeKey, Handset.picture_takeKey, picture]

@[simp] theorem picture_keyDown (rig : σ) (key : UInt8) :
    picture (Device.keyDown rig key) = picture rig := by
  rw [picture, handset_keyDown, Handset.picture_keyDown, picture]

@[simp] theorem picture_keyUp (rig : σ) (key : UInt8) :
    picture (Device.keyUp rig key) = picture rig := by
  rw [picture, handset_keyUp, Handset.picture_keyUp, picture]

@[simp] theorem picture_blink (rig : σ) : picture (Device.blink rig) = picture rig := by
  rw [picture, handset_blink, Handset.picture_blink, picture]

@[simp] theorem picture_hideCaret (rig : σ) : picture (Device.hideCaret rig) = picture rig := by
  rw [picture, handset_hideCaret, Handset.picture_hideCaret, picture]

@[simp] theorem picture_takeDirty (rig : σ) : picture (Device.takeDirty rig).2 = picture rig := by
  rw [picture, handset_takeDirty, Handset.picture_takeDirty, picture]

theorem picture_releaseAll (rig : σ) (values : List Answer) :
    picture (values.foldl Engine.release rig) = picture rig := by
  rw [picture, keeps.foldl_release, picture]

namespace Bench.CaretBlinks

variable {b other : Bench σ}

theorem of_still (still : other.scheduler.blink.isActive = false) (hidden : ¬CaretShown other.rig) :
    other.CaretBlinks :=
  ⟨fun active => absurd active (Bool.eq_false_iff.mp still), fun shown => absurd shown hidden⟩

theorem of_same (blinks : b.CaretBlinks) (blink : other.scheduler.blink = b.scheduler.blink)
    (running : other.scheduler.running = b.scheduler.running)
    (last : other.scheduler.last = b.scheduler.last) (shown : CaretShown other.rig → CaretShown b.rig) :
    other.CaretBlinks := by
  refine ⟨fun active => ?_, fun drawn => ?_⟩
  · rw [running, last]
    rw [blink] at active
    exact blinks.asked active
  · rw [blink]
    exact blinks.blinking (shown drawn)

/-- The caret is off the screen of a program that does not wait for the keyboard. -/
theorem still (blinks : b.CaretBlinks) (other : ¬b.scheduler.last.AsksKeyboard) :
    b.scheduler.blink.isActive = false ∧ ¬CaretShown b.rig := by
  have still : ¬b.scheduler.blink.isActive = true := fun active => other (blinks.asked active).2
  exact ⟨Bool.eq_false_iff.mpr still, fun shown => still (blinks.blinking shown)⟩

/-! ## Operations -/

theorem schedule (blinks : b.CaretBlinks) : b.schedule.CaretBlinks := by
  refine blinks.of_same ?_ ?_ ?_ ?_
  all_goals simp

theorem pause (blinks : b.CaretBlinks) : b.pause.CaretBlinks := by
  refine b.pause_cases ?paused ?ignored
  case paused =>
    intro _
    exact blinks.of_same rfl rfl rfl id
  case ignored =>
    intro _
    exact blinks

theorem cont (blinks : b.CaretBlinks) : b.cont.CaretBlinks := by
  refine b.cont_cases ?continued ?ignored
  case continued =>
    intro _ _
    exact schedule (blinks.of_same rfl rfl rfl id)
  case ignored =>
    intro _
    exact blinks

/-- A program that sleeps has no caret, so none is left when it goes on. -/
theorem wake (blinks : b.CaretBlinks) (coherent : b.scheduler.Coherent) (generation : Nat) :
    (b.wake generation).CaretBlinks := by
  have woken (id : TimerId) (asleep : b.scheduler.sleep = some (id, generation)) :
      CaretBlinks { b with scheduler.sleep := none, scheduler.last := .more } := by
    obtain ⟨nanoseconds, last⟩ := coherent.asleep _ asleep
    obtain ⟨still, hidden⟩ := blinks.still (by simp [last, Outcome.AsksKeyboard])
    exact of_still still hidden
  refine b.wake_cases generation ?woken ?held ?stale
  case woken => exact fun id asleep _ _ => schedule (woken id asleep)
  case held => exact fun id asleep _ => woken id asleep
  case stale => exact fun _ => blinks

theorem provide (blinks : b.CaretBlinks) (values : List Answer) : (b.provide values).CaretBlinks := by
  refine b.provide_cases values ?accepted ?refused
  case accepted =>
    intro _
    exact schedule (blinks.of_same rfl rfl rfl id)
  case refused =>
    intro _
    refine blinks.of_same rfl rfl rfl ?_
    simp [CaretShown, (keeps (σ := σ)).foldl_release]

theorem keyDown (blinks : b.CaretBlinks) (key : UInt8) : (b.keyDown key).CaretBlinks := by
  have pressed : CaretBlinks { b with rig := Device.keyDown b.rig key } := by
    refine blinks.of_same rfl rfl rfl fun shown => ?_
    rwa [CaretShown, handset_keyDown] at shown
  refine b.keyDown_cases key ?resumed ?buffered
  case resumed => exact fun _ _ _ => schedule pressed
  case buffered => exact fun _ => pressed

theorem keyUp (blinks : b.CaretBlinks) (key : UInt8) : (b.keyUp key).CaretBlinks := by
  refine blinks.of_same rfl rfl rfl fun shown => ?_
  rwa [Bench.keyUp, CaretShown, handset_keyUp] at shown

theorem repaintTick (blinks : b.CaretBlinks) : b.repaintTick.2.CaretBlinks := by
  refine blinks.of_same ?_ ?_ ?_ fun shown => ?_
  · rw [scheduler_repaintTick]
  · rw [scheduler_repaintTick]
  · rw [scheduler_repaintTick]
  · rw [CaretShown, rig_repaintTick] at shown
    split at shown
    · rwa [handset_takeDirty] at shown
    · exact shown

/-- The caret blinks only on ticks that come while it is to blink. -/
theorem blinkTick (blinks : b.CaretBlinks) : b.blinkTick.CaretBlinks := by
  unfold Bench.blinkTick
  split
  · rename_i active
    simp only [Bool.and_eq_true] at active
    exact ⟨blinks.asked, fun _ => active.1⟩
  · exact blinks

theorem not_caretShown_stopBlink (blinking : CaretShown b.rig → b.scheduler.blink.isActive = true) :
    ¬CaretShown b.stopBlink.rig := by
  rw [CaretShown, rig_stopBlink]
  split
  · rw [handset_hideCaret, Handset.caretShown_hideCaret]
    exact Bool.false_ne_true
  · rename_i inactive
    exact fun shown => inactive (blinking shown)

theorem runBatch (still : b.scheduler.blink.isActive = false) (hidden : ¬CaretShown b.rig)
    (resume : Resume) : (b.runBatch resume).CaretBlinks := by
  refine of_still ?_ ?_
  · rw [scheduler_runBatch]
    exact still
  · rw [rig_runBatch]
    exact not_caretShown_exec hidden resume _

theorem start (b : Bench σ) : b.start.CaretBlinks ∧ ¬CaretShown b.start.rig := by
  have hidden : ¬CaretShown b.start.rig := by
    rw [start_eq, rig_schedule, rig_restarted, CaretShown, handset_restart, Handset.caretShown_restart]
    exact Bool.false_ne_true
  refine ⟨of_still ?_ hidden, hidden⟩
  simp [start_eq, restarted]

/-- Stopping the engine and giving answers back leaves the handset alone. -/
theorem handset_stop (b : Bench σ) : handset b.stop.2.rig = handset b.stopBlink.rig := by
  have quiet : handset b.quietened.rig = handset b.stopBlink.rig := by
    rw [rig_quietened, keeps.foldl_release, rig_stopBlink]
  rw [stop_eq]
  dsimp only
  split
  · exact quiet
  · rw [OnHandset.handset_stop, quiet]

theorem picture_stopBlink (b : Bench σ) : picture b.stopBlink.rig = picture b.rig := by
  rw [rig_stopBlink]
  split
  · exact picture_hideCaret b.rig
  · rfl

theorem picture_stop (b : Bench σ) : picture b.stop.2.rig = picture b.rig := by
  rw [picture, handset_stop, ← picture_stopBlink]
  rfl

theorem stop (blinks : b.CaretBlinks) : b.stop.2.CaretBlinks ∧ ¬CaretShown b.stop.2.rig := by
  have hidden : ¬CaretShown b.stop.2.rig := by
    rw [CaretShown, handset_stop]
    exact not_caretShown_stopBlink blinks.blinking
  exact ⟨of_still (off_stop b).still hidden, hidden⟩

end Bench.CaretBlinks

/-! ## One step -/

/-- A batch was run on the picture of the bench before, without a caret on it, and left none. -/
def Bench.RanOnPicture (b later : Bench σ) : Prop :=
  ¬CaretShown later.rig ∧ ∃ (rig : σ) (resume : Resume), ¬CaretShown rig ∧
    Device.pixel rig = (picture b.rig).pixel ∧
    later.rig = (Engine.exec rig resume b.scheduler.batchSize).2

/-- What a step does to the caret: it runs a batch on the picture, or keeps the picture. -/
structure Bench.Stepping (b : Bench σ) (done : StepResult × Bench σ) : Prop where
  blinks : done.2.CaretBlinks
  waits : done.1 = .waitingForKey ∨ (∃ request, done.1 = .awaitingInput request) →
    done.2.scheduler.blink.isActive = true
  ran : done.1 = .stepped → b.RanOnPicture done.2
  kept : done.1 ≠ .stepped → picture done.2.rig = picture b.rig

namespace Bench.Stepping

variable {b before : Bench σ}

theorem of_batch (still : b.scheduler.blink.isActive = false) (hidden : ¬CaretShown b.rig)
    (same : picture b.rig = picture before.rig)
    (size : b.scheduler.batchSize = before.scheduler.batchSize) (resume : Resume) :
    Stepping before (.stepped, b.runBatch resume) := by
  refine ⟨CaretBlinks.runBatch still hidden resume, nofun, fun _ => ⟨?_, b.rig, resume, hidden, ?_, ?_⟩,
    fun other => absurd rfl other⟩
  · rw [rig_runBatch]
    exact not_caretShown_exec hidden resume _
  · rw [pixel_of_hidden hidden, same]
  · rw [rig_runBatch, size]

/-- Whether the caret was on the screen or not, the batch has the screen for itself. -/
theorem of_stopBlink (blinking : CaretShown b.rig → b.scheduler.blink.isActive = true)
    (same : picture b.rig = picture before.rig)
    (size : b.scheduler.batchSize = before.scheduler.batchSize) (resume : Resume) :
    Stepping before (.stepped, b.stopBlink.runBatch resume) := by
  refine of_batch ?_ (CaretBlinks.not_caretShown_stopBlink blinking) ?_ ?_ resume
  · rw [scheduler_stopBlink, Ticker.isActive_stop]
  · rw [CaretBlinks.picture_stopBlink, same]
  · rw [scheduler_stopBlink, size]

/-- The caret is to blink from now on, or goes on blinking. -/
theorem of_blinking (running : b.scheduler.running = true) (asked : b.scheduler.last.AsksKeyboard)
    (active : b.scheduler.blink.isActive = true) (same : picture b.rig = picture before.rig)
    {result : StepResult} (other : ¬result = .stepped) : Stepping before (result, b) :=
  ⟨⟨fun _ => ⟨running, asked⟩, fun _ => active⟩, fun _ => active, fun stepped => absurd stepped other,
    fun _ => same⟩

theorem of_kept (blinks : b.CaretBlinks) (same : b.rig = before.rig) {result : StepResult}
    (other : ¬(result = .waitingForKey ∨ (∃ request, result = .awaitingInput request) ∨ result = .stepped)) :
    Stepping before (result, b) := by
  simp only [not_or] at other
  obtain ⟨keyed, asked, ran⟩ := other
  exact ⟨blinks, fun waits => absurd waits (not_or.mpr ⟨keyed, asked⟩), fun stepped => absurd stepped ran,
    fun _ => congrArg picture same⟩

end Bench.Stepping

namespace Bench.CaretBlinks

variable {b : Bench σ}

theorem sleep (blinks : b.CaretBlinks) (nanoseconds : UInt64) : (b.sleep nanoseconds).CaretBlinks := by
  refine b.sleep_cases nanoseconds ?armed ?fresh
  case armed => exact fun _ _ => blinks
  case fresh => exact fun _ _ => blinks.of_same rfl rfl rfl id

theorem proceed (blinks : b.CaretBlinks) (running : b.scheduler.running = true) :
    b.Stepping b.proceed := by
  have missed {rig : σ} {key : Option UInt8} (taken : Device.takeKey b.rig = (key, rig)) :
      (CaretShown rig → b.scheduler.blink.isActive = true) ∧ picture rig = picture b.rig := by
    obtain rfl : (Device.takeKey b.rig).2 = rig := congrArg Prod.snd taken
    refine ⟨fun shown => blinks.blinking (Handset.caretShown_of_takeKey ?_), picture_takeKey b.rig⟩
    rwa [CaretShown, handset_takeKey] at shown
  refine b.proceed_cases ?done ?more ?sleep ?keyless ?keyed ?asked ?prompting ?answered ?failed
  case done =>
    intro _
    exact .of_kept blinks rfl (by simp)
  case more =>
    intro last
    obtain ⟨still, hidden⟩ := blinks.still (by simp [last, Outcome.AsksKeyboard])
    exact .of_batch still hidden rfl rfl .nothing
  case sleep =>
    intro nanoseconds last
    refine .of_kept (blinks.sleep nanoseconds) ?_ (by simp)
    exact b.sleep_cases nanoseconds (fun _ _ => rfl) fun _ _ => rfl
  case keyless =>
    intro rig last taken
    refine .of_blinking (b := { b with rig }.startBlink) running (.inl last) ?_ (missed taken).2 ?_
    · rw [scheduler_startBlink, Ticker.isActive_start]
    · simp
  case keyed =>
    intro key rig last taken
    exact .of_stopBlink (b := { b with rig }) (missed taken).1 (missed taken).2 rfl _
  case asked =>
    intro request last _
    refine .of_blinking (b := { b.startBlink with scheduler.inputState := .prompting }) running
      (.inr ⟨request, last⟩) ?_ ?_ ?_
    · change b.startBlink.scheduler.blink.isActive = true
      rw [scheduler_startBlink, Ticker.isActive_start]
    · rfl
    · simp
  case prompting =>
    intro request _ _
    exact .of_kept blinks rfl (by simp)
  case answered =>
    intro request values _ _
    refine .of_stopBlink (b := { b with scheduler.inputState := .idle }) blinks.blinking ?_ ?_ _
    all_goals rfl
  case failed =>
    intro fault last
    obtain ⟨still, hidden⟩ := blinks.still (by simp [last, Outcome.AsksKeyboard])
    refine .of_kept (b := { b with scheduler.last := .done }) (of_still still hidden) ?_ ?_
    · rfl
    · simp

theorem step (blinks : b.CaretBlinks) : b.Stepping b.step := by
  have taken : b.taken.CaretBlinks := blinks.of_same rfl rfl rfl id
  refine b.step_cases ?active ?halted
  case active =>
    intro running _
    obtain ⟨blinks, waits, ran, kept⟩ := taken.proceed running
    exact ⟨blinks, waits, ran, kept⟩
  case halted =>
    intro _
    refine .of_kept (b := b.taken) taken ?_ ?_
    · rfl
    · simp

theorem handle (blinks : b.CaretBlinks) (coherent : b.scheduler.Coherent) (event : SimEvent) :
    (b.handle event).CaretBlinks := by
  cases event with
  | runStep => exact blinks.step.blinks
  | sleepElapsed generation => exact blinks.wake coherent generation
  | repaintTick => exact blinks.repaintTick
  | cursorTick => exact blinks.blinkTick
  | keyRelease code => exact blinks.keyUp code

/-! ## What keeps the picture -/

theorem picture_pressed (b : Bench σ) (key : UInt8) : picture (b.keyDown key).rig = picture b.rig := by
  refine b.keyDown_cases key (fun _ _ _ => ?_) fun _ => picture_keyDown b.rig key
  rw [rig_schedule]
  exact picture_keyDown b.rig key

theorem picture_provide (b : Bench σ) (values : List Answer) :
    picture (b.provide values).rig = picture b.rig := by
  refine b.provide_cases values (fun _ => ?_) fun _ => picture_releaseAll b.rig values
  rw [rig_schedule]

/-- Only a batch draws anything but the caret. -/
theorem picture_handle (blinks : b.CaretBlinks) (event : SimEvent) :
    picture (b.handle event).rig = picture b.rig ∨ event = .runStep ∧ b.step.1 = .stepped := by
  cases event with
  | runStep =>
      by_cases stepped : b.step.1 = .stepped
      · exact .inr ⟨rfl, stepped⟩
      · exact .inl (blinks.step.kept stepped)
  | sleepElapsed generation =>
      exact .inl (congrArg picture (rig_wake b generation))
  | repaintTick =>
      refine .inl ?_
      rw [Bench.handle, rig_repaintTick]
      split
      · exact picture_takeDirty b.rig
      · rfl
  | cursorTick =>
      refine .inl ?_
      rw [Bench.handle, rig_blinkTick]
      split
      · exact picture_blink b.rig
      · rfl
  | keyRelease code => exact .inl (picture_keyUp b.rig code)

/-! ## Rounds -/

variable {r : Round σ}

theorem move (blinks : r.bench.CaretBlinks) (coherent : r.bench.scheduler.Coherent) (m : Move) :
    (r.move m).bench.CaretBlinks := by
  cases m with
  | pause => exact blinks.pause
  | cont => exact blinks.cont
  | press key => exact blinks.keyDown key
  | lift key => exact blinks.keyUp key
  | provide values => exact blinks.provide values
  | liftLater | advance | drain => exact blinks.of_same rfl rfl rfl id
  | next => exact r.bench_next_cases blinks (blinks.handle coherent)
  | stray event => exact blinks.handle coherent event

theorem act (blinks : r.bench.CaretBlinks) (coherent : r.bench.scheduler.Coherent) (a : Act) :
    (r.act a).bench.CaretBlinks := by
  cases a with
  | start => exact (start r.bench).1
  | stop => exact blinks.stop.1
  | move m => exact blinks.move coherent m

theorem acts (blinks : r.bench.CaretBlinks) (coherent : r.bench.scheduler.Coherent) (as : List Act) :
    (r.acts as).bench.CaretBlinks := by
  induction as generalizing r with
  | nil => exact blinks
  | cons a rest ih => exact ih (blinks.act coherent a) (coherent.act a)

theorem picture_move (blinks : r.bench.CaretBlinks) (m : Move) :
    picture (r.move m).bench.rig = picture r.bench.rig ∨
      r.handling m = some .runStep ∧ r.bench.step.1 = .stepped := by
  cases m with
  | pause => exact .inl (congrArg picture (rig_pause r.bench))
  | cont => exact .inl (congrArg picture (rig_cont r.bench))
  | press key => exact .inl (picture_pressed r.bench key)
  | lift key => exact .inl (picture_keyUp r.bench.rig key)
  | provide values => exact .inl (picture_provide r.bench values)
  | liftLater | advance | drain => exact .inl rfl
  | next =>
      obtain ⟨b, batch⟩ := r
      cases batch with
      | nil => exact .inl rfl
      | cons event rest =>
          refine (blinks.picture_handle event).imp_right fun ⟨step, stepped⟩ => ⟨?_, stepped⟩
          rw [step]
          rfl
  | stray event =>
      refine (blinks.picture_handle event).imp_right fun ⟨step, stepped⟩ => ⟨?_, stepped⟩
      rw [step]
      rfl

end Bench.CaretBlinks

namespace Round

/-- No caret is left behind, and the picture is the program's own. -/
structure NoCaretLeft (r : Round σ) : Prop where
  /-- The caret blinks only while the program runs and waits for the keyboard. -/
  asked : r.bench.scheduler.blink.isActive = true →
    r.bench.scheduler.running = true ∧
      (r.bench.scheduler.last = .key ∨ ∃ request, r.bench.scheduler.last = .input request)
  /-- It is on the screen only while it blinks. -/
  blinking : CaretShown r.bench.rig → r.bench.scheduler.blink.isActive = true
  /-- It blinks after a step that reports the wait. -/
  waits : r.bench.step.1 = .waitingForKey ∨ (∃ request, r.bench.step.1 = .awaitingInput request) →
    r.bench.step.2.scheduler.blink.isActive = true
  /-- A step that goes on, with a key, with answers that were accepted or with neither, runs its batch
      on the picture and leaves no caret. -/
  ran : r.bench.step.1 = .stepped → r.bench.RanOnPicture r.bench.step.2
  /-- A stop takes the caret off and leaves the picture. -/
  stopped : ¬CaretShown r.bench.stop.2.rig ∧ Device.pixel r.bench.stop.2.rig = (picture r.bench.rig).pixel
  started : ¬CaretShown r.bench.start.rig
  /-- Nothing but a batch changes the picture while the program runs. -/
  kept : ∀ m, picture (r.move m).bench.rig = picture r.bench.rig ∨
    r.handling m = some .runStep ∧ r.bench.step.1 = .stepped

/-- Whatever happens to a scheduler whose handset has no caret on the screen, and whatever the loop holds. -/
theorem no_caret_left (settings : SimulatorSettings) (rig : σ) (hidden : ¬CaretShown rig)
    (loop : EventLoop SimEvent) (batch : List SimEvent) (as : List Act) :
    ((⟨⟨.ofSettings settings, rig, loop⟩, batch⟩ : Round σ).acts as).NoCaretLeft := by
  have still : Bench.CaretBlinks ⟨.ofSettings settings, rig, loop⟩ := .of_still rfl hidden
  have blinks := still.acts (r := ⟨⟨.ofSettings settings, rig, loop⟩, batch⟩) (.of_idle rfl rfl) as
  have stopped := blinks.stop.2
  refine ⟨blinks.asked, blinks.blinking, blinks.step.waits, blinks.step.ran, ⟨stopped, ?_⟩,
    (Bench.CaretBlinks.start _).2, blinks.picture_move⟩
  rw [pixel_of_hidden stopped, Bench.CaretBlinks.picture_stop]

/-- A program that waits for a key. The caret is on the screen after one tick, and off it after a stop. -/
theorem no_caret_left_of_inkey :
    let step : Act := .move (.stray .runStep)
    let rig := Computer.ofProgram [.act ⟨0, 5⟩ .inkey]
    let r := (⟨⟨.ofSettings .standard, rig, .empty⟩, []⟩ : Round Computer).acts
      [.start, step, step, .move (.stray .cursorTick)]
    ¬CaretShown rig ∧ CaretShown r.bench.rig ∧ r.bench.scheduler.blink.isActive = true ∧
      ¬CaretShown r.bench.stop.2.rig := by
  intro step rig r
  have hidden : ¬CaretShown rig := Bool.false_ne_true
  have shown : CaretShown r.bench.rig := by
    change (handset r.bench.rig).caretShown = true
    decide +kernel
  have left : r.NoCaretLeft := no_caret_left .standard rig hidden .empty [] _
  exact ⟨hidden, shown, left.blinking shown, left.stopped.1⟩

end Round

end PocketBasic
