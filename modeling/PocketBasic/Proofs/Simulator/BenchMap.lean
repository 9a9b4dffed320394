import PocketBasic.Proofs.Engine.Hom
import PocketBasic.Proofs.Simulator.Round

/-! # The scheduler does not look inside

Seen with another rig that cannot be told apart from its own, the scheduler does the same.
-/

namespace PocketBasic

variable {σ τ : Type}

namespace Bench

/-- The same bench seen with another rig. -/
def map (f : σ → τ) (b : Bench σ) : Bench τ := ⟨b.scheduler, f b.rig, b.loop⟩

variable (f : σ → τ) (b : Bench σ)

theorem map_schedule : (b.map f).schedule = b.schedule.map f := by
  unfold schedule map
  split <;> rfl

theorem map_cancelSleep : (b.map f).cancelSleep = b.cancelSleep.map f := by
  obtain ⟨s, rig, loop⟩ := b
  unfold cancelSleep map
  cases s.sleep with
  | none => rfl
  | some timer => rfl

theorem map_sleep (nanoseconds : UInt64) : (b.map f).sleep nanoseconds = (b.sleep nanoseconds).map f := by
  obtain ⟨s, rig, loop⟩ := b
  unfold sleep map
  cases s.sleep with
  | none => rfl
  | some timer => rfl

theorem map_pause : (b.map f).pause = b.pause.map f := by
  unfold pause map
  split <;> rfl

theorem map_cont : (b.map f).cont = b.cont.map f := by
  unfold cont map
  split
  · exact map_schedule f { b with scheduler.paused := false }
  · rfl

theorem map_wake (generation : Nat) : (b.map f).wake generation = (b.wake generation).map f := by
  unfold wake map
  dsimp only
  split
  · split
    · split
      · exact map_schedule f { b with scheduler.sleep := none, scheduler.last := .more }
      · rfl
    · rfl
  · rfl

variable [Engine σ] [Device σ] [Engine τ] [Device τ] {f} (hom : Rig.Hom f)

include hom

theorem map_runBatch (resume : Resume) :
    (b.map f).runBatch resume = (b.runBatch resume).map f := by
  simp only [runBatch]
  rw [← map_schedule]
  simp only [map, hom.exec]

theorem map_releaseAll (values : List Answer) :
    (b.map f).releaseAll values = (b.releaseAll values).map f := by
  simp only [releaseAll, map, hom.foldl_release]

theorem map_provide (values : List Answer) :
    (b.map f).provide values = (b.provide values).map f := by
  unfold provide
  rw [apply_ite (map f), ← map_schedule, ← map_releaseAll b hom]
  rfl

theorem map_stopBlink : (b.map f).stopBlink = b.stopBlink.map f := by
  unfold stopBlink
  rw [apply_ite (map f)]
  simp only [map, hom.hideCaret]

theorem map_keyDown (key : UInt8) : (b.map f).keyDown key = (b.keyDown key).map f := by
  unfold keyDown
  dsimp only
  rw [apply_ite (map f), ← map_schedule]
  simp only [map, hom.keyDown]
  rfl

theorem map_keyUp (key : UInt8) : (b.map f).keyUp key = (b.keyUp key).map f := by
  simp only [keyUp, map, hom.keyUp]

theorem map_repaintTick : (b.map f).repaintTick = Prod.map id (map f) b.repaintTick := by
  unfold repaintTick
  rw [apply_ite (Prod.map id (map f))]
  simp only [map, hom.takeDirty]
  rfl

theorem map_blinkTick : (b.map f).blinkTick = b.blinkTick.map f := by
  unfold blinkTick
  rw [apply_ite (map f)]
  simp only [map, hom.blink]

theorem map_start : (b.map f).start = b.start.map f := by
  have quiet : { b.map f with rig := Engine.reset (b.map f).rig }.stopBlink =
      { b with rig := Engine.reset b.rig }.stopBlink.map f := by
    rw [← map_stopBlink _ hom]
    simp only [map, hom.reset]
  have restarted : (b.map f).restarted = b.restarted.map f := by
    unfold restarted
    dsimp only
    rw [quiet]
    have awake := map_cancelSleep f
      { { b with rig := Engine.reset b.rig }.stopBlink with
        rig := Device.restart { b with rig := Engine.reset b.rig }.stopBlink.rig }
    simp only [map, hom.restart] at awake ⊢
    rw [awake]
    rfl
  rw [start_eq, restarted, map_schedule, start_eq]

theorem map_stop : (b.map f).stop = Prod.map id (map f) b.stop := by
  have quietened : (b.map f).quietened = b.quietened.map f := by
    have painted : (b.map f).cancelSleep.stopRepaint = b.cancelSleep.stopRepaint.map f := by
      rw [map_cancelSleep]
      rfl
    unfold quietened
    dsimp only
    rw [painted, map_stopBlink _ hom, ← map_releaseAll _ hom]
    rfl
  have halted : (b.map f).halted = b.halted.map f := by
    unfold Bench.halted
    rw [quietened]
    rfl
  rw [stop_eq_ite, stop_eq_ite, apply_ite (Prod.map id (map f)), quietened, halted]
  simp only [map, hom.stop]
  rfl

theorem map_proceed : (b.map f).proceed = Prod.map id (map f) b.proceed := by
  have stepped {b c : Bench τ} (same : b = c) : (StepResult.stepped, b) = (.stepped, c) :=
    congrArg _ same
  unfold proceed
  cases ended : b.scheduler.last with
  | done | failed =>
      simp only [map, ended]
      rfl
  | more =>
      simp only [map, ended]
      exact stepped (map_runBatch b hom .nothing)
  | sleep nanoseconds =>
      simp only [map, ended]
      exact congrArg (Prod.mk _) (map_sleep f b nanoseconds)
  | key =>
      have taken := hom.takeKey b.rig
      cases device : Device.takeKey b.rig with
      | mk key rig =>
          rw [device] at taken
          cases key with
          | none =>
              simp only [map, ended, taken]
              rfl
          | some key =>
              have still := map_stopBlink { b with rig } hom
              have resumed := map_runBatch { b with rig }.stopBlink hom (.key key)
              rw [← still] at resumed
              simp only [map, ended, taken] at resumed ⊢
              exact stepped resumed
  | input request =>
      cases state : b.scheduler.inputState with
      | idle =>
          simp only [map, ended, state]
          rfl
      | prompting =>
          simp only [map, ended, state]
          rfl
      | ready values =>
          have still := map_stopBlink { b with scheduler.inputState := .idle } hom
          have resumed := map_runBatch
            { b with scheduler.inputState := .idle }.stopBlink hom (.answers values)
          rw [← still] at resumed
          simp only [map, ended, state] at resumed ⊢
          exact stepped resumed

theorem map_step : (b.map f).step = Prod.map id (map f) b.step := by
  rw [step_eq, step_eq, apply_ite (Prod.map id (map f)), ← map_proceed b.taken hom]
  rfl

theorem map_handle (event : SimEvent) : (b.map f).handle event = (b.handle event).map f := by
  cases event with
  | runStep => exact congrArg Prod.snd (map_step b hom)
  | sleepElapsed generation => exact map_wake f b generation
  | repaintTick => exact congrArg Prod.snd (map_repaintTick b hom)
  | cursorTick => exact map_blinkTick b hom
  | keyRelease code => exact map_keyUp b hom code

end Bench

end PocketBasic
