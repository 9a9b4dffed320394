import PocketBasic.Proofs.Engine.KeyQueue
import PocketBasic.Proofs.Simulator.BenchMap

/-! # Recorded runs

A recorder is a rig that writes down what is asked of it. The scheduler cannot tell a recorder from the
rig inside it, so what a log says is true of the run without one. That an answer was accepted is no
business of a rig; a round on a recorder notes it there.
-/

namespace PocketBasic

/-- What a log tells about a run. -/
inductive Entry where
  /-- The engine was reset to run the program from the top. -/
  | begun
  /-- The device has handed a key out; its queue held `waiting` before. -/
  | took (key : UInt8) (waiting : List UInt8)
  /-- The answers of an open dialog were accepted. -/
  | answered (values : List Answer)
  | ran (resume : Resume) (outcome : Outcome)
  deriving Repr, DecidableEq

/-- A rig and its log, the newest entry in front. -/
structure Recorder (σ : Type) where
  rig : σ
  log : List Entry

variable {σ τ : Type}

namespace Recorder

variable [Engine σ]

instance : Engine (Recorder σ) where
  exec r resume budget :=
    let (outcome, rig) := Engine.exec r.rig resume budget
    (outcome, ⟨rig, .ran resume outcome :: r.log⟩)
  stop r :=
    let (complaint, rig) := Engine.stop r.rig
    (complaint, { r with rig })
  reset r := ⟨Engine.reset r.rig, .begun :: r.log⟩
  compile r units :=
    let (compilation, rig) := Engine.compile r.rig units
    (compilation, { r with rig })
  encode r := Engine.encode r.rig
  release r value := { r with rig := Engine.release r.rig value }
  store r := Engine.store r.rig
  withStore r store := { r with rig := Engine.withStore r.rig store }
  brokenOff r := Engine.brokenOff r.rig

variable [Device σ] [KeyQueue σ]

instance : Device (Recorder σ) where
  restart r := { r with rig := Device.restart r.rig }
  takeKey r :=
    match Device.takeKey r.rig with
    | (none, rig) => (none, { r with rig })
    | (some key, rig) => (some key, ⟨rig, .took key (KeyQueue.waiting r.rig) :: r.log⟩)
  keyDown r key := { r with rig := Device.keyDown r.rig key }
  keyUp r key := { r with rig := Device.keyUp r.rig key }
  blink r := { r with rig := Device.blink r.rig }
  hideCaret r := { r with rig := Device.hideCaret r.rig }
  isPressed r := Device.isPressed r.rig
  takeDirty r :=
    let (area, rig) := Device.takeDirty r.rig
    (area, { r with rig })
  pixel r := Device.pixel r.rig

end Recorder

/-! ## Rounds on another rig -/

namespace Round

/-- The same round seen with another rig. -/
def map (f : σ → τ) (r : Round σ) : Round τ := ⟨r.bench.map f, r.batch⟩

variable [Engine σ] [Device σ] [Engine τ] [Device τ] {f : σ → τ} (hom : Rig.Hom f)

include hom

theorem map_act (r : Round σ) (a : Act) : (r.map f).act a = (r.act a).map f := by
  cases a with
  | start => exact congrArg (Round.mk · r.batch) (r.bench.map_start hom)
  | stop => exact congrArg (Round.mk ·.2 r.batch) (r.bench.map_stop hom)
  | move m =>
      cases m with
      | pause => exact congrArg (Round.mk · r.batch) (r.bench.map_pause f)
      | cont => exact congrArg (Round.mk · r.batch) (r.bench.map_cont f)
      | press key => exact congrArg (Round.mk · r.batch) (r.bench.map_keyDown hom key)
      | lift key => exact congrArg (Round.mk · r.batch) (r.bench.map_handle hom (.keyRelease key))
      | provide values => exact congrArg (Round.mk · r.batch) (r.bench.map_provide hom values)
      | liftLater | advance | drain => rfl
      | next =>
          obtain ⟨b, batch⟩ := r
          cases batch with
          | nil => rfl
          | cons event rest => exact congrArg (Round.mk · rest) (b.map_handle hom event)
      | stray event => exact congrArg (Round.mk · r.batch) (r.bench.map_handle hom event)

end Round

/-! ## Recording changes nothing -/

theorem Recorder.hom [Engine σ] [Device σ] [KeyQueue σ] :
    Rig.Hom (Recorder.rig : Recorder σ → σ) where
  exec _ _ _ := rfl
  stop _ := rfl
  reset _ := rfl
  compile _ _ := rfl
  encode _ := rfl
  release _ _ := rfl
  store _ := rfl
  withStore _ _ := rfl
  restart _ := rfl
  takeKey r := by
    simp only [Device.takeKey]
    split
    · rename_i rig empty
      rw [empty]
    · rename_i key rig taken
      rw [taken]
  keyDown _ _ := rfl
  keyUp _ _ := rfl
  blink _ := rfl
  hideCaret _ := rfl
  takeDirty _ := rfl
  pixel _ := rfl

end PocketBasic
