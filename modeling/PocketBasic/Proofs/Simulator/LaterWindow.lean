import PocketBasic.Proofs.Simulator.Driven
import PocketBasic.Proofs.Simulator.Later

/-! # A window later on

What the user does and what the loop delivers comes to the same in a window that is later. The inspector is left
out, and so is the button of the keypad that the mouse holds: they may be as another run has left them. A key
may come up in one of two windows alone.
-/

namespace PocketBasic

variable {d : Delay} {σ : Type} {R : σ → σ → Prop}

/-- The second window is the first, so much later. -/
structure Window.Later (d : Delay) (R : σ → σ → Prop) (w other : Window σ) : Prop where
  scheduler : other.scheduler = w.scheduler.later d
  rig : R w.rig other.rig
  dialog : other.dialog = w.dialog.map (.renamed d.bodies)
  scale : other.display.scale = w.display.scale
  keyRelease : other.keyRelease = w.keyRelease

/-- A window with its loop, and the same so much later. -/
def Window.Behind (d : Delay) (R : σ → σ → Prop) (x y : Window σ × EventLoop SimEvent) : Prop :=
  x.1.Later d R y.1 ∧ x.2.Later d y.2

/-- The act is for the inspector. -/
def Window.Act.edits : Window.Act → Bool
  | .inspector _ _ => true
  | _ => false

/-- The mouse lets go of the key that it holds, wherever it is. -/
theorem Window.keypadEvent_release [Device σ] (w : Window σ) (l : EventLoop SimEvent) (row col : Nat)
    (bounds : CellRect) :
    (w.keypadEvent (.release row col) bounds l).2 =
      match w.keypad.held with
      | some code => { w with keypad := ⟨none⟩ }.settle (({ w with keypad := ⟨none⟩ }.bench l).keyUp code)
      | none => ({ w with keypad := ⟨none⟩ }, l) := by
  obtain ⟨name, rig, scheduler, display, ⟨held⟩, dialog, panel, status, message, keyRelease⟩ := w
  cases held <;> rfl

namespace Window.Later

variable {w other : Window σ} {l m : EventLoop SimEvent}

theorem bench (h : w.Later d R other) (behind : l.Later d m) :
    Bench.Later d R (w.bench l) (other.bench m) :=
  .of_scheduler h.scheduler h.rig behind

theorem withRig (h : w.Later d R other) {rig twin : σ} (like : R rig twin) :
    Later d R { w with rig } { other with rig := twin } :=
  ⟨h.scheduler, like, h.dialog, h.scale, h.keyRelease⟩

/-- Both windows take over what their schedulers have done. -/
theorem settle (h : w.Later d R other) {b c : Bench σ} (moved : Bench.Later d R b c) :
    Behind d R (w.settle b) (other.settle c) := by
  cases moved with
  | mk like behind => exact ⟨⟨rfl, like, h.dialog, h.scale, h.keyRelease⟩, behind⟩

theorem layout (h : w.Later d R other) (bounds : CellRect) : other.layout bounds = w.layout bounds := by
  have size : other.display.size = w.display.size := by
    unfold Display.size Display.cellPixels
    rw [h.scale]
  unfold Window.layout
  rw [size]

section Rig

variable [Engine σ] [Device σ] (twins : Rig.Twins d.bodies R)

include twins

theorem closeDialog (h : w.Later d R other) : Later d R w.closeDialog other.closeDialog := by
  have dialog := h.dialog
  unfold Window.closeDialog
  cases shown : w.dialog with
  | none =>
      rw [shown, Option.map_none] at dialog
      rw [dialog]
      exact h
  | some open_ =>
      rw [shown, Option.map_some] at dialog
      rw [dialog]
      obtain ⟨_, _, closed⟩ := twins.cancelDialog h.rig open_
      exact ⟨h.scheduler, closed, rfl, h.scale, h.keyRelease⟩

omit twins [Engine σ] in
theorem copy (h : w.Later d R other) (area : Option PixelRect) :
    Later d R (w.copy area) (other.copy area) := by
  cases area with
  | none => exact h
  | some area => exact ⟨h.scheduler, h.rig, h.dialog, h.scale, h.keyRelease⟩

theorem copyDirty (h : w.Later d R other) : Later d R w.copyDirty other.copyDirty := by
  obtain ⟨same, taken⟩ := twins.takeDirty h.rig
  unfold Window.copyDirty
  dsimp only
  rw [same]
  exact (h.withRig taken).copy _

/-! ## The lifecycle -/

theorem follow (h : w.Later d R other) (behind : l.Later d m) (t : Lifecycle.Transition) :
    Behind d R (w.follow t l) (other.follow t m) := by
  have closed := closeDialog twins h
  have restatus (status : RunStatus) : Later d R { w with status } { other with status } :=
    ⟨h.scheduler, h.rig, h.dialog, h.scale, h.keyRelease⟩
  obtain ⟨source, target, event⟩ := t
  cases target with
  | started =>
      cases source with
      | stopped =>
          have begun : Later d R { w.closeDialog with message := none, status := .running }
              { other.closeDialog with message := none, status := .running } :=
            ⟨closed.scheduler, closed.rig, closed.dialog, closed.scale, closed.keyRelease⟩
          exact begun.settle (Bench.Later.start twins (begun.bench behind))
      | started | paused => exact (restatus .running).settle (h.bench behind).cont
  | paused => cases source <;> exact (restatus .paused).settle (h.bench behind).pause
  | stopped =>
      obtain ⟨_, halted⟩ := Bench.Later.stop twins (closed.bench behind)
      obtain ⟨settled, still⟩ := closed.settle halted
      have copied := copyDirty twins settled
      have shown : Behind d R (w.follow ⟨source, .stopped, event⟩ l)
          (other.follow ⟨source, .stopped, event⟩ m) := by
        cases source
        all_goals
          exact ⟨⟨copied.scheduler, copied.rig, copied.dialog, copied.scale, copied.keyRelease⟩, still⟩
      exact shown

theorem transition (h : w.Later d R other) (behind : l.Later d m) (t : Lifecycle.Transition) :
    Behind d R (w.transition t l) (other.transition t m) := by
  obtain ⟨followed, still⟩ := follow twins h behind t
  exact ⟨⟨followed.scheduler, followed.rig, followed.dialog, followed.scale, followed.keyRelease⟩, still⟩

/-! ## Events of the loop -/

omit twins [Engine σ] [Device σ] in
theorem afterStep (h : w.Later d R other) (behind : l.Later d m) (result : StepResult) :
    Echo (Behind d R) id ((w.afterStep result).1, (w.afterStep result).2, l)
      ((other.afterStep result).1, (other.afterStep result).2, m) := by
  cases result with
  | awaitingInput request =>
      have dialog : some (InputDialog.ofRequest request) =
          (some (InputDialog.ofRequest request)).map (.renamed d.bodies) := by
        rw [Option.map_some, InputDialog.renamed_ofRequest]
      exact ⟨rfl, ⟨h.scheduler, h.rig, dialog, h.scale, h.keyRelease⟩, behind⟩
  | failed fault => exact ⟨rfl, ⟨h.scheduler, h.rig, h.dialog, h.scale, h.keyRelease⟩, behind⟩
  | idle | stepped | sleeping | waitingForKey | finished => exact ⟨rfl, h, behind⟩

/-- An event that the loop delivers, on either side. -/
theorem handle (h : w.Later d R other) (behind : l.Later d m) {event : SimEvent}
    (kept : event.isRelease = false) :
    Echo (Behind d R) id (w.handle event l) (other.handle (event.later d) m) := by
  have bench := h.bench behind
  cases event with
  | runStep =>
      obtain ⟨same, stepped⟩ := Bench.Later.step twins bench
      obtain ⟨settled, still⟩ := h.settle stepped
      have after := afterStep settled still (w.bench l).step.1
      simp only [Window.handle, SimEvent.later]
      rw [same]
      exact after
  | sleepElapsed generation => exact ⟨rfl, h.settle (bench.wake generation)⟩
  | repaintTick =>
      obtain ⟨same, ticked⟩ := Bench.Later.repaintTick twins bench
      obtain ⟨settled, still⟩ := h.settle ticked
      refine ⟨rfl, ?_, still⟩
      simp only [Window.handle, SimEvent.later]
      rw [same]
      exact settled.copy _
  | cursorTick => exact ⟨rfl, h.settle (Bench.Later.blinkTick twins bench)⟩
  | keyRelease => cases kept

/-! ## The user -/

theorem dialogEvent (h : w.Later d R other) (behind : l.Later d m) (input : Input) (bounds : CellRect) :
    Echo (Behind d R) id (w.dialogEvent input bounds l) (other.dialogEvent input bounds m) := by
  have dialog := h.dialog
  unfold Window.dialogEvent
  cases shown : w.dialog with
  | none =>
      rw [shown, Option.map_none] at dialog
      rw [dialog]
      exact ⟨rfl, h, behind⟩
  | some opened =>
      rw [shown, Option.map_some] at dialog
      rw [dialog]
      have handled := twins.dialog h.rig opened input (dialogRect bounds opened)
      have rect : dialogRect bounds (opened.renamed d.bodies) = dialogRect bounds opened := rfl
      dsimp only
      rw [rect]
      cases first : opened.handle w.rig input (dialogRect bounds opened) with
      | mk outcome rest =>
          cases second : (opened.renamed d.bodies).handle other.rig input (dialogRect bounds opened) with
          | mk outcome' rest' =>
              obtain ⟨left, rig⟩ := rest
              obtain ⟨left', twin⟩ := rest'
              rw [first, second] at handled
              obtain ⟨rfl, rfl, like⟩ := handled
              cases outcome with
              | pending =>
                  exact ⟨rfl, ⟨h.scheduler, like, rfl, h.scale, h.keyRelease⟩, behind⟩
              | accepted values =>
                  have closed : Later d R { w with dialog := none, rig }
                      { other with dialog := none, rig := twin } :=
                    ⟨h.scheduler, like, rfl, h.scale, h.keyRelease⟩
                  exact ⟨rfl, closed.settle (Bench.Later.provide twins (closed.bench behind) values)⟩
              | cancelled =>
                  exact ⟨rfl, ⟨h.scheduler, like, rfl, h.scale, h.keyRelease⟩, behind⟩

theorem pressKey (h : w.Later d R other) (behind : l.Later d m) (code : UInt8) :
    Behind d R (w.pressKey code l) (other.pressKey code m) := by
  have running : other.scheduler.running = w.scheduler.running := by
    rw [h.scheduler]
    rfl
  unfold Window.pressKey
  rw [running]
  split
  · obtain ⟨settled, still⟩ := h.settle (Bench.Later.keyDown twins (h.bench behind) code)
    have delay : (other.settle ((other.bench m).keyDown code)).1.keyRelease =
        (w.settle ((w.bench l).keyDown code)).1.keyRelease := h.keyRelease
    refine ⟨settled, ?_⟩
    dsimp only
    rw [delay]
    exact (still.addTimer _ none (.keyRelease code)).2
  · exact ⟨h, behind⟩

/-- A key may come up in one window alone. -/
theorem keyUp (h : w.Later d R other) (behind : l.Later d m) (released lifted : Option UInt8) :
    Behind d R
      (match released with
        | some code => w.settle ((w.bench l).keyUp code)
        | none => (w, l))
      (match lifted with
        | some code => other.settle ((other.bench m).keyUp code)
        | none => (other, m)) := by
  have bench := h.bench behind
  cases released with
  | none =>
      cases lifted with
      | none => exact ⟨h, behind⟩
      | some code => exact h.settle (Bench.Later.lifts twins bench code)
  | some code =>
      have up := Bench.Later.lifted twins bench code
      cases lifted with
      | none => exact h.settle up
      | some code => exact h.settle (Bench.Later.lifts twins up code)

theorem keypadEvent (h : w.Later d R other) (behind : l.Later d m) (input : Input) (bounds : CellRect) :
    Behind d R (w.keypadEvent input bounds l).2 (other.keypadEvent input bounds m).2 := by
  have touched (first second : KeypadView) :
      Later d R { w with keypad := first } { other with keypad := second } :=
    ⟨h.scheduler, h.rig, h.dialog, h.scale, h.keyRelease⟩
  have running : other.scheduler.running = w.scheduler.running := by
    rw [h.scheduler]
    rfl
  unfold Window.keypadEvent
  rw [h.layout]
  cases input with
  | click row col =>
      unfold KeypadView.handle
      dsimp only
      cases KeypadView.hit? (w.layout bounds).keypad row col with
      | none => exact ⟨touched _ _, behind⟩
      | some button =>
          dsimp only
          rw [running]
          split
          · have held := touched ⟨some button.code⟩ ⟨some button.code⟩
            exact held.settle (Bench.Later.keyDown twins (held.bench behind) button.code)
          · exact ⟨touched _ _, behind⟩
  | release row col =>
      have lifted := keyUp twins (touched ⟨none⟩ ⟨none⟩) behind w.keypad.held other.keypad.held
      rw [← w.keypadEvent_release l row col bounds, ← other.keypadEvent_release m row col bounds] at lifted
      unfold Window.keypadEvent at lifted
      rw [h.layout] at lifted
      exact lifted
  | _ => exact ⟨touched _ _, behind⟩

theorem mouseEvent (h : w.Later d R other) (behind : l.Later d m) (input : Input) (bounds : CellRect) :
    Behind d R (w.mouseEvent input bounds l).2 (other.mouseEvent input bounds m).2 := by
  cases input with
  | click row col =>
      have blurred : Later d R w.blurInspector other.blurInspector :=
        ⟨h.scheduler, h.rig, h.dialog, h.scale, h.keyRelease⟩
      cases inside : (w.layout bounds).panel.contains row col with
      | true =>
          obtain ⟨panel, first⟩ := w.exists_clicked row col bounds
          obtain ⟨panel', second⟩ := other.exists_clicked row col bounds
          rw [w.mouseEvent_inside l inside, other.mouseEvent_inside m (by rw [h.layout]; exact inside),
            first, second]
          exact ⟨⟨h.scheduler, h.rig, h.dialog, h.scale, h.keyRelease⟩, behind⟩
      | false =>
          rw [w.mouseEvent_outside l inside, other.mouseEvent_outside m (by rw [h.layout]; exact inside)]
          exact keypadEvent twins blurred behind _ bounds
  | _ => exact keypadEvent twins h behind _ bounds

/-- Whatever reaches a window from outside comes to the same, but for what is typed into the inspector. -/
theorem perform (h : w.Later d R other) (behind : l.Later d m) {a : Act} (outside : a.isOutside = true)
    (edits : a.edits = false) : Echo (Behind d R) id (w.perform l a) (other.perform m a) := by
  cases a with
  | event | drain => cases outside
  | inspector => cases edits
  | dialog input bounds => exact dialogEvent twins h behind input bounds
  | mouse input bounds => exact ⟨rfl, mouseEvent twins h behind input bounds⟩
  | press code => exact ⟨rfl, pressKey twins h behind code⟩
  | paste text =>
      refine ⟨rfl, ⟨h.scheduler, h.rig, ?_, h.scale, h.keyRelease⟩, behind⟩
      change other.dialog.map (·.paste text) = (w.dialog.map (·.paste text)).map (.renamed d.bodies)
      rw [h.dialog, Option.map_map, Option.map_map]
      rfl
  | toggleInspector | blurInspector =>
      exact ⟨rfl, ⟨h.scheduler, h.rig, h.dialog, h.scale, h.keyRelease⟩, behind⟩
  | advance ms => exact ⟨rfl, h, behind.advance ms⟩

end Rig

end Window.Later

end PocketBasic
