import PocketBasic.Proofs.Program.Drawing
import PocketBasic.Proofs.Simulator.Along
import PocketBasic.Proofs.Simulator.Host
import PocketBasic.Proofs.Simulator.Sampling
import PocketBasic.Proofs.Simulator.Window

/-! # The display mirrors the handset

The window copies the dirty area and nothing else, on a tick while the program runs and once more when it
is stopped. That is enough, because the copy can differ from the handset only where the handset is dirty:
every operation marks what it changes, and whoever takes the area copies it.
-/

namespace PocketBasic

theorem Computer.keeps_handset : Engine.Keeps Computer.handset where
  compile _ _ := rfl
  release _ _ := rfl
  withStore _ _ := rfl

/-- Whatever is done to a computer, short of taking the dirty area, marks what it changes. -/
theorem Computer.along_marks : Rig.Along Computer.handset Handset.Marks where
  refl := .refl
  trans := .trans
  keeps := keeps_handset
  exec c resume budget := Handset.Marks.drawing.exec c.run resume budget
  stop c := .refl c.handset
  reset c := .refl c.handset
  restart c := .restart c.handset
  takeKey c := .takeKey c.handset
  keyDown c key := .keyDown c.handset key
  keyUp c key := .keyUp c.handset key
  blink c := .blink c.handset
  hideCaret c := .hideCaret c.handset

namespace Window

/-- The display and the handset have the same picture. -/
def Mirrors (w : Window Computer) : Prop :=
  ∀ x y, x < screenWidth → y < screenHeight → w.display.pixels.pixel x y = w.rig.handset.pixel x y

/-- The display is behind the handset at most where the handset is dirty, and it is kept up to date
    while the program runs. -/
structure Trails (w : Window Computer) : Prop where
  dirty : ∀ {x y}, w.rig.handset.pixel x y ≠ w.display.pixels.pixel x y → w.rig.handset.IsDirty x y
  sampled : w.scheduler.Sampled

variable {w other : Window Computer} {loop : EventLoop SimEvent}

theorem trails_opened (name : String) (program : List Instruction) (settings : SimulatorSettings) :
    (opened name (Computer.ofProgram program) settings).Trails :=
  ⟨fun differ => absurd rfl differ, .fresh settings⟩

namespace Trails

/-- The handset may move on as long as it marks what it changes. -/
theorem moved (trails : w.Trails) (display : other.display = w.display)
    (marks : w.rig.handset.Marks other.rig.handset) (sampled : other.scheduler.Sampled) :
    other.Trails := by
  refine ⟨fun {x y} differ => ?_, sampled⟩
  rw [display] at differ
  by_cases same : other.rig.handset.pixel x y = w.rig.handset.pixel x y
  · rw [same] at differ
    exact marks.grows (trails.dirty differ)
  · exact marks.marked same

theorem kept (trails : w.Trails) (display : other.display = w.display)
    (handset : other.rig.handset = w.rig.handset) (scheduler : other.scheduler = w.scheduler) :
    other.Trails := by
  refine trails.moved display ?_ ?_
  · rw [handset]
    exact .refl _
  · rw [scheduler]
    exact trails.sampled

theorem alike (trails : w.Trails) (same : w.Alike other) : other.Trails :=
  trails.kept same.display (by rw [same.rig]) same.scheduler

/-- The window takes over a bench that its rig has led to. -/
theorem settle (trails : w.Trails) {b : Bench Computer} (marks : w.rig.handset.Marks b.rig.handset)
    (sampled : b.scheduler.Sampled) : (w.settle b).1.Trails :=
  trails.moved rfl marks sampled

theorem closeDialog (trails : w.Trails) : w.closeDialog.Trails := by
  refine trails.kept ?_ ?_ w.scheduler_closeDialog
  · unfold Window.closeDialog
    split <;> rfl
  · unfold Window.closeDialog
    split
    · exact Computer.keeps_handset.cancelDialog _ w.rig
    · rfl

/-! ## Copying -/

theorem agree_of_clean (trails : w.Trails) {x y : Nat} (clean : ¬w.rig.handset.IsDirty x y) :
    w.display.pixels.pixel x y = w.rig.handset.pixel x y :=
  Decidable.byContradiction fun differ => clean (trails.dirty fun same => differ same.symm)

theorem mirrors_copyDirty (trails : w.Trails) : w.copyDirty.Mirrors := by
  intro x y hx hy
  cases taken : w.rig.handset.dirty with
  | none =>
      have clean : ¬w.rig.handset.IsDirty x y := by
        intro ⟨_, area, dirty, _⟩
        rw [taken] at dirty
        cases dirty
      simp only [copyDirty, Device.takeDirty, Handset.takeDirty, taken, Window.copy]
      exact trails.agree_of_clean clean
  | some area =>
      simp only [copyDirty, Device.takeDirty, Handset.takeDirty, taken, Window.copy, Display.copy]
      rw [Bitmap.pixel_mapArea]
      split
      · rfl
      · rename_i outside
        refine trails.agree_of_clean fun ⟨_, covering, dirty, inside⟩ => outside ?_
        rw [taken] at dirty
        cases dirty
        exact ⟨inside, hx, hy⟩

/-- A display that mirrors the handset is not behind it anywhere. Off the screen there is nothing. -/
theorem of_mirrors (mirrors : w.Mirrors) (sampled : w.scheduler.Sampled) : w.Trails := by
  refine ⟨fun {x y} differ => ?_, sampled⟩
  by_cases screen : x < screenWidth ∧ y < screenHeight
  · exact absurd (mirrors x y screen.1 screen.2).symm differ
  · refine absurd ?_ differ
    simp only [Handset.pixel, Bitmap.pixel]
    split
    · split
      · rename_i hy hx
        exact absurd ⟨hx, hy⟩ screen
      · rfl
    · rfl

theorem copyDirty (trails : w.Trails) : w.copyDirty.Trails := by
  refine .of_mirrors trails.mirrors_copyDirty ?_
  rw [Window.copyDirty, scheduler_copy]
  exact trails.sampled

/-- A tick that comes while the picture is sampled copies it. -/
theorem repaint_eq (active : w.scheduler.repaint.isActive = true) :
    w.handle .repaintTick loop = (none, w.copyDirty, loop) := by
  have ticked : (w.bench loop).repaintTick =
      ((Device.takeDirty w.rig).1, { w.bench loop with rig := (Device.takeDirty w.rig).2 }) :=
    if_pos active
  rw [handle, ticked]
  rfl

/-! ## Transitions -/

/-- A stop takes the caret off the screen first and copies what that has left. -/
theorem mirrors_stopped (trails : w.Trails) (source : Lifecycle) (event : Lifecycle.Event) :
    (w.transition ⟨source, .stopped, event⟩ loop).1.Mirrors := by
  have stopped := trails.closeDialog.settle
    (Computer.along_marks.stopBench (w.closeDialog.bench loop)) (.stop _)
  have mirrors := stopped.mirrors_copyDirty
  cases source <;> exact mirrors

theorem transition (trails : w.Trails) (t : Lifecycle.Transition) :
    (w.transition t loop).1.Trails := by
  obtain ⟨source, target, event⟩ := t
  have continued : (w.settle (w.bench loop).cont).1.Trails :=
    trails.settle (Computer.along_marks.cont (w.bench loop)) (trails.sampled.cont (b := w.bench loop))
  cases target with
  | started =>
      cases source with
      | stopped =>
          have started := trails.closeDialog.settle
            (Computer.along_marks.start (w.closeDialog.bench loop)) (.start _)
          exact started.kept rfl rfl rfl
      | started => exact continued.kept rfl rfl rfl
      | paused => exact continued.kept rfl rfl rfl
  | paused =>
      have paused : (w.settle (w.bench loop).pause).1.Trails :=
        trails.settle (Computer.along_marks.pause (w.bench loop)) (trails.sampled.pause (b := w.bench loop))
      cases source <;> exact paused.kept rfl rfl rfl
  | stopped =>
      have stopped := trails.closeDialog.settle
        (Computer.along_marks.stopBench (w.closeDialog.bench loop)) (.stop _)
      cases source <;> exact stopped.copyDirty.kept rfl rfl rfl

/-! ## Between the transitions -/

theorem handle (trails : w.Trails) (event : SimEvent) : (w.handle event loop).2.1.Trails := by
  by_cases tick : event = .repaintTick
  · subst tick
    cases active : w.scheduler.repaint.isActive with
    | true =>
        rw [repaint_eq active]
        exact trails.copyDirty
    | false =>
        have idle : (w.bench loop).repaintTick = (none, w.bench loop) := by
          simp only [Bench.repaintTick, bench, active, Bool.false_eq_true, if_false]
        rw [Window.handle, idle]
        exact trails.kept rfl rfl rfl
  · have settled := w.bench_handle event loop
    have rig := congrArg Bench.rig settled
    have scheduler := congrArg Bench.scheduler settled
    refine trails.moved ?_ ?_ ?_
    · cases event with
      | runStep =>
          simp only [Window.handle, afterStep]
          split <;> rfl
      | repaintTick => exact absurd rfl tick
      | sleepElapsed | cursorTick | keyRelease => rfl
    · have marks := Computer.along_marks.handle (w.bench loop) tick
      rw [← rig] at marks
      exact marks
    · have sampled := trails.sampled.handle (b := w.bench loop) event
      rw [← scheduler] at sampled
      exact sampled

theorem dialogEvent (trails : w.Trails) (input : Input) (bounds : CellRect) :
    (w.dialogEvent input bounds loop).2.1.Trails := by
  unfold Window.dialogEvent
  split
  · exact trails
  · rename_i d _
    have edited := Computer.keeps_handset.dialog d w.rig input (dialogRect bounds d)
    split
    all_goals
      rename_i handled
      rw [handled] at edited
    · exact trails.kept rfl edited rfl
    · rename_i values _ rig
      let closed : Window Computer := { w with dialog := none, rig }
      have trails : closed.Trails := trails.kept rfl edited rfl
      exact trails.settle (Computer.along_marks.provide (closed.bench loop) values)
        (trails.sampled.provide (b := closed.bench loop) values)
    · exact trails.kept rfl edited rfl

theorem perform (trails : w.Trails) (a : Act) : (w.perform loop a).2.1.Trails := by
  refine w.perform_cases loop (motive := fun result => result.2.1.Trails) a
    ?event ?dialog ?edited ?down ?up ?pasted ?ignored
  case event => exact fun _ event => trails.handle event
  case dialog => exact fun input bounds _ => trails.dialogEvent input bounds
  case edited =>
    intro input bounds _
    exact trails.kept rfl
      (Computer.keeps_handset.inspector w.panel w.rig input (w.layout bounds).panel) rfl
  case down =>
    intro _ other code later settled
    have pressed := trails.settle (Computer.along_marks.keyDownBench (w.bench loop) code)
      (trails.sampled.keyDown (b := w.bench loop) code)
    exact pressed.alike settled
  case up =>
    intro _ other code later settled
    have lifted : (w.settle ((w.bench loop).keyUp code)).1.Trails :=
      trails.settle (Computer.along_marks.keyUp w.rig code) trails.sampled
    exact lifted.alike settled
  case pasted => exact fun _ text => trails.kept rfl rfl rfl
  case ignored => exact fun _ other later same => trails.alike same

theorem meet {state : Window Computer × EventLoop SimEvent} (trails : state.1.Trails)
    (demand : Demand) : (meet state demand).1.Trails := by
  cases demand with
  | transition t => exact trails.transition t
  | act a => exact trails.perform a
  | close => exact trails.closeDialog

theorem run {state : Window Computer × EventLoop SimEvent} (trails : state.1.Trails)
    (demands : List Demand) : (demands.foldl Window.meet state).1.Trails := by
  induction demands generalizing state with
  | nil => exact trails
  | cons demand rest ih => exact ih (trails.meet demand)

end Trails

/-- Whatever has been asked of a window, a pixel that its display shows wrongly lies in the area to be
    copied. So the picture is right after every tick while the program runs, and after every stop. -/
theorem display_mirrors (name : String) (program : List Instruction) (settings : SimulatorSettings)
    (loop : EventLoop SimEvent) (demands : List Demand) :
    let state := demands.foldl meet (opened name (Computer.ofProgram program) settings, loop)
    (∀ x y, x < screenWidth → y < screenHeight →
        state.1.display.pixels.pixel x y ≠ state.1.rig.handset.pixel x y →
        ∃ area, state.1.rig.handset.dirty = some area ∧ area.contains x y = true) ∧
      (state.1.scheduler.running = true → (state.1.handle .repaintTick state.2).2.1.Mirrors) ∧
      ∀ t : Lifecycle.Transition, t.target = .stopped → (state.1.transition t state.2).1.Mirrors := by
  intro state
  let start : Window Computer × EventLoop SimEvent :=
    (opened name (Computer.ofProgram program) settings, loop)
  have new : start.1.Trails := trails_opened name program settings
  have trails : state.1.Trails := new.run demands
  refine ⟨fun x y _ _ differ => (trails.dirty differ.symm).2, fun running => ?_, fun t stopped => ?_⟩
  · rw [Trails.repaint_eq (trails.sampled.trans running)]
    exact trails.mirrors_copyDirty
  · obtain ⟨source, target, event⟩ := t
    cases stopped
    exact trails.mirrors_stopped source event

/-- A program that inverts a corner of the screen has run its first batch. The display does not show the
    corner yet. -/
theorem display_mirrors_inverted :
    let program : List Instruction := [.act ⟨0, 14⟩ (.invert ⟨0, 0, 2, 2⟩)]
    let demands : List Demand :=
      [.transition ⟨.stopped, .started, .start⟩, .act (.event .runStep)]
    let state := demands.foldl meet (opened "corner" (Computer.ofProgram program) .standard, .empty)
    state.1.display.pixels.pixel 0 0 ≠ state.1.rig.handset.pixel 0 0 ∧
      (∃ area, state.1.rig.handset.dirty = some area ∧ area.contains 0 0 = true) ∧
      state.1.scheduler.running = true ∧ (state.1.handle .repaintTick state.2).2.1.Mirrors ∧
      (state.1.transition ⟨.started, .stopped, .stop⟩ state.2).1.Mirrors := by
  intro program demands state
  obtain ⟨behind, ticked, stopped⟩ := display_mirrors "corner" program .standard .empty demands
  have differ : state.1.display.pixels.pixel 0 0 ≠ state.1.rig.handset.pixel 0 0 := by decide +kernel
  exact ⟨differ, behind 0 0 (by decide) (by decide) differ, rfl, ticked rfl, stopped _ rfl⟩

end Window

end PocketBasic
