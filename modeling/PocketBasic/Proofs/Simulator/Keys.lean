import PocketBasic.Proofs.Program.Drawing
import PocketBasic.Proofs.Simulator.Driven
import PocketBasic.Proofs.Simulator.History

/-! # The keys that are down

A key goes down by a press, of the host's keyboard or of the mouse, and what lifts it is different for the
two: an event on the loop, or the next release of the mouse, which the keypad takes to be for the one button
that it remembers. Nothing else puts a key down, and nothing takes an event that lifts one off the loop
before it is handled. So a key stays down for good only if the keypad forgets its button.
-/

namespace PocketBasic

/-- A rig whose keys go down when they are pressed, and up when they are lifted or the device is switched off. -/
class KeyHolder (σ : Type) [Engine σ] [Device σ] where
  down : σ → List UInt8
  keeps : Engine.Keeps down
  down_exec : ∀ (rig : σ) (resume : Resume) (budget : Nat), down (Engine.exec rig resume budget).2 = down rig
  down_stop : ∀ rig : σ, down (Engine.stop rig).2 = down rig
  down_restart : ∀ rig : σ, down (Device.restart rig) = []
  down_takeKey : ∀ rig : σ, down (Device.takeKey rig).2 = down rig
  mem_down_keyDown : ∀ (rig : σ) (key code : UInt8),
    code ∈ down (Device.keyDown rig key) ↔ code ∈ down rig ∨ code = key
  mem_down_keyUp : ∀ (rig : σ) (key code : UInt8),
    code ∈ down (Device.keyUp rig key) ↔ code ∈ down rig ∧ code ≠ key
  down_blink : ∀ rig : σ, down (Device.blink rig) = down rig
  down_hideCaret : ∀ rig : σ, down (Device.hideCaret rig) = down rig
  down_takeDirty : ∀ rig : σ, down (Device.takeDirty rig).2 = down rig

namespace Handset

@[simp] theorem pressed_markDirty (h : Handset) (area : PixelRect) : (h.markDirty area).pressed = h.pressed := by
  unfold markDirty
  split <;> rfl

@[simp] theorem pressed_write (h : Handset) (area : PixelRect) (f : Bool → Bool) :
    (h.write area f).pressed = h.pressed := by
  simp [write]

@[simp] theorem pressed_hideCaret (h : Handset) : h.hideCaret.pressed = h.pressed := by
  unfold hideCaret
  split <;> simp

theorem pressed_takeKey (h : Handset) : h.takeKey.2.pressed = h.pressed := by
  unfold takeKey
  split <;> simp

theorem mem_pressed_keyDown {h : Handset} {key code : UInt8} :
    code ∈ (h.keyDown key).pressed ↔ code ∈ h.pressed ∨ code = key := by
  by_cases already : key ∈ h.pressed
  · simp only [keyDown, List.contains_iff_mem, already, if_true]
    exact ⟨.inl, fun either => either.elim id fun same => same ▸ already⟩
  · simp [keyDown, already]

theorem mem_pressed_keyUp {h : Handset} {key code : UInt8} :
    code ∈ (h.keyUp key).pressed ↔ code ∈ h.pressed ∧ code ≠ key := by
  simp [keyUp]

/-- A program does not touch the keys. -/
theorem drawing_pressed : Drawing fun h other => other.pressed = h.pressed where
  refl _ := rfl
  trans first second := second.trans first
  clearScreen h := by simp [clearScreen]
  fill h area := by simp [fill]
  clear h area := by simp [clear]
  invert h area := by simp [invert]
  setCursor h x y := by simp [setCursor]

end Handset

instance : KeyHolder Computer where
  down c := c.handset.pressed
  keeps := ⟨fun _ _ => rfl, fun _ _ => rfl, fun _ _ => rfl⟩
  down_exec c resume budget := Handset.drawing_pressed.exec c.run resume budget
  down_stop _ := rfl
  down_restart _ := Handset.blank.pressed_markDirty .fullScreen
  down_takeKey c := c.handset.pressed_takeKey
  mem_down_keyDown _ _ _ := Handset.mem_pressed_keyDown
  mem_down_keyUp _ _ _ := Handset.mem_pressed_keyUp
  down_blink _ := Handset.pressed_write _ _ _
  down_hideCaret c := c.handset.pressed_hideCaret
  down_takeDirty _ := rfl

open KeyHolder (down)

/-! ## What is still to come -/

namespace EventLoop

variable {ε : Type} {l other : EventLoop ε} {event : ε}

/-- The event is posted, or a timer is to deliver it. -/
def Pends (l : EventLoop ε) (event : ε) : Prop :=
  event ∈ l.posted ∨ ∃ t ∈ l.timers, t.event = event

theorem Pends.of_subset (pends : l.Pends event) (posted : ∀ e ∈ l.posted, e ∈ other.posted)
    (timers : ∀ t ∈ l.timers, t.event = event → t ∈ other.timers) : other.Pends event := by
  rcases pends with queued | ⟨t, armed, same⟩
  · exact .inl (posted event queued)
  · exact .inr ⟨t, timers t armed same, same⟩

theorem Pends.drain (pends : l.Pends event) : l.drain.2.Pends event ∨ event ∈ l.drain.1 := by
  rcases pends with queued | ⟨t, armed, same⟩
  · exact .inr (l.mem_drain.mpr (.inr queued))
  · rcases l.mem_timers_drain_or armed with left | due
    · exact .inl (.inr ⟨t, left, same⟩)
    · exact .inr (same ▸ due)

end EventLoop

variable {σ : Type} [Engine σ] [Device σ] [KeyHolder σ]

namespace Bench

omit [Engine σ] [Device σ] [KeyHolder σ] in
theorem pends_schedule (b : Bench σ) {code : UInt8} :
    b.schedule.loop.Pends (.keyRelease code) ↔ b.loop.Pends (.keyRelease code) := by
  simp only [EventLoop.Pends, posted_schedule, timers_schedule, List.mem_append]
  split <;> simp

theorem mem_down_keyDown (b : Bench σ) {key code : UInt8} :
    code ∈ down (b.keyDown key).rig ↔ code ∈ down b.rig ∨ code = key := by
  refine b.keyDown_cases key (fun _ _ _ => ?_) fun _ => KeyHolder.mem_down_keyDown b.rig key code
  rw [rig_schedule]
  exact KeyHolder.mem_down_keyDown b.rig key code

omit [Engine σ] [KeyHolder σ] in
theorem pends_keyDown (b : Bench σ) {key code : UInt8} :
    (b.keyDown key).loop.Pends (.keyRelease code) ↔ b.loop.Pends (.keyRelease code) :=
  b.keyDown_cases key (fun _ _ _ => pends_schedule _) fun _ => Iff.rfl

end Bench

/-- From one bench to the next no key has gone down, and every key that was to be lifted still is. -/
structure Bench.Calm (b other : Bench σ) : Prop where
  lifted : ∀ code ∈ down other.rig, code ∈ down b.rig
  pends : ∀ code, b.loop.Pends (.keyRelease code) → other.loop.Pends (.keyRelease code)

namespace Bench.Calm

variable {b other third : Bench σ} {batch : List SimEvent}

theorem refl (b : Bench σ) : b.Calm b := ⟨fun _ => id, fun _ => id⟩

theorem trans (first : b.Calm other) (second : other.Calm third) : b.Calm third :=
  ⟨fun code held => first.lifted code (second.lifted code held),
    fun code pends => second.pends code (first.pends code pends)⟩

theorem of_rig (same : down other.rig = down b.rig) (loop : other.loop = b.loop) : b.Calm other :=
  ⟨fun _ held => same ▸ held, fun _ pends => loop ▸ pends⟩

/-- Of the timers only those that lift a key count. -/
theorem of_loop (rig : other.rig = b.rig) (posted : ∀ e ∈ b.loop.posted, e ∈ other.loop.posted)
    (timers : ∀ t ∈ b.loop.timers, ∀ code, t.event = .keyRelease code → t ∈ other.loop.timers) :
    b.Calm other :=
  ⟨fun _ held => rig ▸ held,
    fun code pends => pends.of_subset posted fun t armed same => timers t armed code same⟩

theorem schedule (calm : b.Calm other) : b.Calm other.schedule :=
  calm.trans ⟨fun _ held => other.rig_schedule ▸ held, fun _ pends => other.pends_schedule.mpr pends⟩

theorem cancelSleep (owned : b.Owned batch) : b.Calm b.cancelSleep := by
  refine b.cancelSleep_cases ?cancelled ?awake
  case cancelled =>
    intro id generation asleep
    obtain ⟨_, own⟩ := (owned.sleeps.asleep id generation asleep).1
    refine of_loop rfl (fun _ queued => queued) fun t armed code lifts => b.loop.mem_timers_kill.mpr ⟨armed, ?_⟩
    rintro rfl
    simp [own t armed rfl] at lifts
  case awake => exact fun _ => refl b

theorem startRepaint (b : Bench σ) : b.Calm b.startRepaint :=
  of_loop rfl (fun _ queued => by simpa using queued)
    fun t armed _ _ => Ticker.mem_timers_start_of_mem _ _ _ armed

theorem startBlink (b : Bench σ) : b.Calm b.startBlink :=
  of_loop rfl (fun _ queued => by simpa [Bench.startBlink] using queued)
    fun t armed _ _ => Ticker.mem_timers_start_of_mem _ _ _ armed

theorem stopRepaint (owned : b.Owned batch) : b.Calm b.stopRepaint :=
  of_loop rfl (fun _ queued => by simpa using queued)
    fun t armed _ lifts => owned.repaint.mem_timers_stop armed (by simp [lifts])

theorem stopBlink (owned : b.Owned batch) : b.Calm b.stopBlink := by
  have loop : b.Calm { b with loop := b.stopBlink.loop } := by
    refine of_loop rfl (fun _ queued => by simpa using queued) fun t armed _ lifts => ?_
    simpa using owned.blink.mem_timers_stop armed (by simp [lifts])
  refine loop.trans (of_rig ?_ rfl)
  rw [rig_stopBlink]
  split
  · exact KeyHolder.down_hideCaret b.rig
  · rfl

theorem pause (b : Bench σ) : b.Calm b.pause :=
  b.pause_cases (fun _ => of_rig rfl rfl) fun _ => refl b

theorem cont (b : Bench σ) : b.Calm b.cont := by
  refine b.cont_cases (fun _ _ => ?_) fun _ => refl b
  have continued : b.Calm { b with scheduler.paused := false } := of_rig rfl rfl
  exact continued.schedule

theorem wake (b : Bench σ) (generation : Nat) : b.Calm (b.wake generation) := by
  have woken : b.Calm { b with scheduler.sleep := none, scheduler.last := .more } := of_rig rfl rfl
  exact b.wake_cases generation (fun _ _ _ _ => woken.schedule) (fun _ _ _ => woken) fun _ => refl b

theorem sleep (b : Bench σ) (nanoseconds : UInt64) : b.Calm (b.sleep nanoseconds) := by
  refine b.sleep_cases nanoseconds (fun _ _ => refl b) fun delay _ => ?_
  exact of_loop rfl (fun _ => id) fun t armed _ _ => List.mem_append_left _ armed

theorem runBatch (b : Bench σ) (resume : Resume) : b.Calm (b.runBatch resume) := by
  rw [runBatch_eq]
  exact schedule (of_rig (KeyHolder.down_exec _ _ _) rfl)

theorem provide (b : Bench σ) (values : List Answer) : b.Calm (b.provide values) := by
  have answered : b.Calm { b with scheduler.inputState := .ready values } := of_rig rfl rfl
  refine b.provide_cases values (fun _ => answered.schedule) fun _ => of_rig ?_ rfl
  exact KeyHolder.keeps.foldl_release values b.rig

theorem start (owned : b.Owned batch) : b.Calm b.start := by
  have reset := owned.withRig (Engine.reset b.rig)
  have off := reset.stopBlink.withRig (Device.restart { b with rig := Engine.reset b.rig }.stopBlink.rig)
  refine ⟨fun code held => ?_, fun code pending => ?_⟩
  · simp [start_eq, rig_restarted, KeyHolder.down_restart] at held
  · have awake := (cancelSleep off).pends code ((stopBlink reset).pends code pending)
    exact (startRepaint _).schedule.pends code awake

theorem stop (owned : b.Owned batch) : b.Calm b.stop.2 := by
  have awake := owned.cancelSleep
  have quiet := (cancelSleep owned).trans ((stopRepaint awake).trans (stopBlink awake.stopRepaint))
  have quietened : b.Calm b.quietened := by
    refine quiet.trans (of_rig ?_ rfl)
    exact KeyHolder.keeps.foldl_release _ _
  rw [stop_eq]
  refine quietened.trans (of_rig ?_ rfl)
  dsimp only
  split
  · rfl
  · exact KeyHolder.down_stop _

theorem proceed (owned : b.Owned batch) : b.Calm b.proceed.2 := by
  have took {key : Option UInt8} {rig : σ} (taken : Device.takeKey b.rig = (key, rig)) :
      b.Calm { b with rig } := by
    refine of_rig ?_ rfl
    have same := KeyHolder.down_takeKey b.rig
    rwa [taken] at same
  refine b.proceed_cases ?done ?more ?sleep ?keyless ?keyed ?asked ?prompting ?answered ?failed
  case done => exact fun _ => refl b
  case more => exact fun _ => runBatch b _
  case sleep => exact fun nanoseconds _ => sleep b nanoseconds
  case keyless => exact fun rig _ missed => (took missed).trans (startBlink _)
  case keyed =>
    intro key rig _ taken
    exact (took taken).trans ((stopBlink (owned.withRig rig)).trans (runBatch _ _))
  case asked => exact fun _ _ _ => (startBlink b).trans (of_rig rfl rfl)
  case prompting => exact fun _ _ _ => refl b
  case answered =>
    intro _ values _ _
    have idle : { b with scheduler.inputState := .idle }.Owned batch := owned.of_timing rfl
    have taken : b.Calm { b with scheduler.inputState := .idle } := of_rig rfl rfl
    exact taken.trans ((stopBlink idle).trans (runBatch _ _))
  case failed => exact fun _ _ => of_rig rfl rfl

theorem step (owned : b.Owned batch) : b.Calm b.step.2 := by
  have taken : b.Calm b.taken := of_rig rfl rfl
  have still : b.taken.Owned batch := owned.of_timing rfl
  exact b.step_cases (fun _ _ => taken.trans (proceed still)) fun _ => taken

theorem keyUp (b : Bench σ) (code : UInt8) : b.Calm (b.keyUp code) :=
  ⟨fun _ held => ((KeyHolder.mem_down_keyUp _ _ _).mp held).1, fun _ => id⟩

theorem handle {event : SimEvent} (owned : b.Owned (event :: batch)) : b.Calm (b.handle event) := by
  cases event with
  | runStep => exact step owned
  | sleepElapsed generation => exact wake b generation
  | repaintTick =>
      refine of_rig ?_ b.loop_repaintTick
      rw [Bench.handle, rig_repaintTick]
      split
      · exact KeyHolder.down_takeDirty b.rig
      · rfl
  | cursorTick =>
      refine of_rig ?_ b.loop_blinkTick
      rw [Bench.handle, rig_blinkTick]
      split
      · exact KeyHolder.down_blink b.rig
      · rfl
  | keyRelease code => exact keyUp b code

end Bench.Calm

end PocketBasic
