import PocketBasic.Proofs.Simulator.Keys

/-! # Keys that are going to be lifted

While a window is open, every key that is down is going to be lifted, by an event of the loop or by the next
release of the mouse. It stays so whatever happens, with one exception: a press on a button while the keypad
still remembers another. The keypad forgets that one, and if it is down and nothing on the loop is to lift
it, it is stuck.
-/

namespace PocketBasic

open KeyHolder (down)

variable {σ : Type} [Engine σ] [Device σ] [KeyHolder σ]

namespace Window

/-- Something is to lift the key: an event on the loop or in the batch that is being handled, or the next
    release of the mouse. -/
def WillLift (batch : List SimEvent) (w : Window σ) (loop : EventLoop SimEvent) (code : UInt8) : Prop :=
  loop.Pends (.keyRelease code) ∨ .keyRelease code ∈ batch ∨ w.keypad.held = some code

/-- No key is down for good. -/
def Unstuck (batch : List SimEvent) (w : Window σ) (loop : EventLoop SimEvent) : Prop :=
  ∀ code ∈ down w.rig, w.WillLift batch loop code

/-- A button is pressed while the keypad remembers another, which is down and which only the mouse would have
    lifted. -/
def Forgets (batch : List SimEvent) (w : Window σ) (loop : EventLoop SimEvent) (input : Input)
    (bounds : CellRect) : Prop :=
  ∃ row col button code, input = .click row col ∧ (w.layout bounds).panel.contains row col = false ∧
    KeypadView.hit? (w.layout bounds).keypad row col = some button ∧ w.keypad.held = some code ∧
    code ≠ button.code ∧ code ∈ down w.rig ∧ ¬loop.Pends (.keyRelease code) ∧ .keyRelease code ∉ batch

variable {w other : Window σ} {loop later : EventLoop SimEvent} {batch : List SimEvent}

omit [Device σ] [KeyHolder σ] in
theorem keypad_closeDialog (w : Window σ) : w.closeDialog.keypad = w.keypad := by
  unfold closeDialog
  split <;> rfl

theorem calm_closeDialog (w : Window σ) (loop : EventLoop SimEvent) :
    (w.bench loop).Calm (w.closeDialog.bench loop) := by
  refine .of_rig ?_ rfl
  change down w.closeDialog.rig = down w.rig
  unfold closeDialog
  split
  · exact KeyHolder.keeps.cancelDialog _ w.rig
  · rfl

omit [KeyHolder σ] in
/-- Nobody but the mouse touches the keypad. -/
theorem keypad_transition (w : Window σ) (loop : EventLoop SimEvent) (t : Lifecycle.Transition) :
    (w.transition t loop).1.keypad = w.keypad := by
  have copied (w : Window σ) (area : Option PixelRect) : (w.copy area).keypad = w.keypad := by
    unfold copy
    split <;> rfl
  obtain ⟨source, target, event⟩ := t
  cases target with
  | started =>
      cases source with
      | stopped => exact w.keypad_closeDialog
      | started | paused => rfl
  | paused => cases source <;> rfl
  | stopped => cases source <;> exact (copied _ _).trans w.keypad_closeDialog

theorem calm_transition (owned : (w.bench loop).Owned batch) (t : Lifecycle.Transition) :
    (w.bench loop).Calm ((w.transition t loop).1.bench (w.transition t loop).2) := by
  have closed := w.calm_closeDialog loop
  have still : (w.closeDialog.bench loop).Owned batch := by
    rw [bench_closeDialog]
    exact owned.withRig _
  obtain ⟨source, target, event⟩ := t
  cases target with
  | started =>
      cases source with
      | stopped => exact closed.trans (.start still)
      | started | paused => exact .cont (w.bench loop)
  | paused => cases source <;> exact .pause (w.bench loop)
  | stopped =>
      refine closed.trans ((Bench.Calm.stop still).trans ?_)
      have copied (w : Window σ) (loop : EventLoop SimEvent) : (w.bench loop).Calm (w.copyDirty.bench loop) := by
        refine .of_rig ?_ rfl
        change down w.copyDirty.rig = down w.rig
        rw [copyDirty, rig_copy]
        exact KeyHolder.down_takeDirty w.rig
      cases source <;> exact copied (w.closeDialog.settle (w.closeDialog.bench loop).stop.2).1 _

theorem calm_dialogEvent (w : Window σ) (loop : EventLoop SimEvent) (input : Input) (bounds : CellRect) :
    (w.bench loop).Calm ((w.dialogEvent input bounds loop).2.1.bench (w.dialogEvent input bounds loop).2.2) ∧
      (w.dialogEvent input bounds loop).2.1.keypad = w.keypad := by
  unfold dialogEvent
  split
  · exact ⟨.refl _, rfl⟩
  · rename_i d _
    have edited := KeyHolder.keeps.dialog d w.rig input (dialogRect bounds d)
    split
    all_goals
      rename_i handled
      rw [handled] at edited
    · exact ⟨.of_rig edited rfl, rfl⟩
    · rename_i values _ rig
      have closed : (w.bench loop).Calm { w.bench loop with rig } := .of_rig edited rfl
      exact ⟨closed.trans (.provide _ values), rfl⟩
    · exact ⟨.of_rig edited rfl, rfl⟩

namespace Unstuck

theorem calm (unstuck : w.Unstuck batch loop) (calm : (w.bench loop).Calm (other.bench later))
    (keypad : other.keypad = w.keypad) : other.Unstuck batch later := by
  intro code held
  rcases unstuck code (calm.lifted code held) with pends | drained | remembered
  · exact .inl (calm.pends code pends)
  · exact .inr (.inl drained)
  · exact .inr (.inr (keypad ▸ remembered))

theorem transition (unstuck : w.Unstuck batch loop) (owned : (w.bench loop).Owned batch)
    (t : Lifecycle.Transition) : (w.transition t loop).1.Unstuck batch (w.transition t loop).2 :=
  unstuck.calm (calm_transition owned t) (w.keypad_transition loop t)

theorem drain (unstuck : w.Unstuck [] loop) : w.Unstuck loop.drain.1 loop.drain.2 := by
  intro code held
  rcases unstuck code held with pends | drained | remembered
  · exact pends.drain.imp_right .inl
  · cases drained
  · exact .inr (.inr remembered)

/-- An event that is handled has lifted its key. -/
theorem handle {event : SimEvent} (unstuck : w.Unstuck (event :: batch) loop)
    (owned : (w.bench loop).Owned (event :: batch)) :
    (w.handle event loop).2.1.Unstuck batch (w.handle event loop).2.2 := by
  have bench := w.bench_handle event loop
  have keypad : (w.handle event loop).2.1.keypad = w.keypad := by
    cases event with
    | runStep =>
        simp only [Window.handle]
        cases (w.bench loop).step with
        | mk result b => cases result <;> rfl
    | repaintTick =>
        simp only [Window.handle, copy]
        split <;> rfl
    | sleepElapsed | cursorTick | keyRelease => rfl
  have calm := Bench.Calm.handle owned
  rw [← bench] at calm
  intro code held
  rcases unstuck.calm calm keypad code held with pends | drained | remembered
  · exact .inl pends
  · rcases List.mem_cons.mp drained with rfl | drained
    · exact absurd rfl ((KeyHolder.mem_down_keyUp _ _ _).mp held).2
    · exact .inr (.inl drained)
  · exact .inr (.inr remembered)

/-- A key of the host's keyboard is lifted by the loop. -/
theorem pressKey (unstuck : w.Unstuck batch loop) (key : UInt8) :
    (w.pressKey key loop).1.Unstuck batch (w.pressKey key loop).2 := by
  unfold Window.pressKey
  split
  · intro code held
    rcases (w.bench loop).mem_down_keyDown.mp held with before | rfl
    · rcases unstuck code before with pends | drained | remembered
      · refine .inl (((w.bench loop).pends_keyDown.mpr pends).of_subset (fun _ => id) fun t armed _ => ?_)
        exact List.mem_append_left _ armed
      · exact .inr (.inl drained)
      · exact .inr (.inr remembered)
    · exact .inl (.inr ⟨_, List.mem_append_right _ (List.mem_singleton_self _), rfl⟩)
  · exact unstuck

/-- A release lifts the button that the keypad remembers. -/
theorem release (unstuck : w.Unstuck batch loop) (row col : Nat) (bounds : CellRect) :
    (w.mouseEvent (.release row col) bounds loop).2.1.Unstuck batch
      (w.mouseEvent (.release row col) bounds loop).2.2 := by
  unfold mouseEvent keypadEvent KeypadView.handle
  cases remembers : w.keypad.held with
  | none => exact unstuck
  | some key =>
      intro code held
      obtain ⟨before, other⟩ := (KeyHolder.mem_down_keyUp _ _ _).mp held
      rcases unstuck code before with pends | drained | remembered
      · exact .inl pends
      · exact .inr (.inl drained)
      · rw [remembers, Option.some.injEq] at remembered
        exact absurd remembered.symm other

end Unstuck

/-! ## Clicks -/

/-- A click on a button of the keypad. -/
theorem click_button (w : Window σ) (loop : EventLoop SimEvent) {row col : Nat} {bounds : CellRect}
    {button : Keypad.Button}
    (outside : (w.layout bounds).panel.contains row col = false)
    (hit : KeypadView.hit? (w.layout bounds).keypad row col = some button) :
    let after := (w.mouseEvent (.click row col) bounds loop).2
    after.1.keypad.held = some button.code ∧
      (∀ code, code ∈ down after.1.rig ↔
        code ∈ down w.rig ∨ w.scheduler.running = true ∧ code = button.code) ∧
      ∀ code, after.2.Pends (.keyRelease code) ↔ loop.Pends (.keyRelease code) := by
  have hit : KeypadView.hit? (w.blurInspector.layout bounds).keypad row col = some button := hit
  have bench : ({ w.blurInspector with keypad := ⟨some button.code⟩ } : Window σ).bench loop = w.bench loop := rfl
  rw [w.mouseEvent_outside loop outside]
  simp only [keypadEvent, KeypadView.handle, hit]
  by_cases running : w.blurInspector.scheduler.running = true
  · rw [if_pos running, bench]
    have running : w.scheduler.running = true := running
    refine ⟨rfl, fun code => ?_, fun code => (w.bench loop).pends_keyDown⟩
    simp only [running, true_and]
    exact (w.bench loop).mem_down_keyDown
  · rw [if_neg running]
    have halted : ¬w.scheduler.running = true := running
    refine ⟨rfl, fun code => ?_, fun _ => Iff.rfl⟩
    simp [halted, blurInspector]

omit [KeyHolder σ] in
/-- Any other click passes the keypad by. -/
theorem click_elsewhere (w : Window σ) (loop : EventLoop SimEvent) {row col : Nat} {bounds : CellRect}
    (elsewhere : (w.layout bounds).panel.contains row col = true ∨
      KeypadView.hit? (w.layout bounds).keypad row col = none) :
    ∃ panel, (w.mouseEvent (.click row col) bounds loop).2 = ({ w with panel }, loop) := by
  cases inside : (w.layout bounds).panel.contains row col with
  | true =>
      obtain ⟨panel, clicked⟩ := w.exists_clicked row col bounds
      exact ⟨panel, by rw [w.mouseEvent_inside loop inside, clicked]⟩
  | false =>
      have missed : KeypadView.hit? (w.blurInspector.layout bounds).keypad row col = none :=
        elsewhere.resolve_left (by simp [inside])
      refine ⟨w.blurInspector.panel, ?_⟩
      rw [w.mouseEvent_outside loop inside]
      simp only [keypadEvent, KeypadView.handle, missed]
      rfl

/-- A press on a button leaves no key stuck unless the keypad forgets another for it, and then it does. -/
theorem unstuck_mouse_iff (unstuck : w.Unstuck batch loop) (input : Input) (bounds : CellRect) :
    (w.mouseEvent input bounds loop).2.1.Unstuck batch (w.mouseEvent input bounds loop).2.2 ↔
      ¬w.Forgets batch loop input bounds := by
  constructor
  case mp =>
    rintro after ⟨row, col, button, code, rfl, outside, hit, remembers, other, held, free, undrained⟩
    obtain ⟨keypad, downs, pends⟩ := w.click_button loop outside hit
    rcases after code ((downs code).mpr (.inl held)) with pending | drained | remembered
    · exact free ((pends code).mp pending)
    · exact undrained drained
    · exact other (Option.some.inj (remembered.symm.trans keypad))
  case mpr =>
    intro keeps
    cases input with
    | click row col =>
        cases inside : (w.layout bounds).panel.contains row col with
        | true =>
            obtain ⟨panel, same⟩ := w.click_elsewhere loop (.inl inside)
            rw [same]
            exact unstuck
        | false =>
            cases hit : KeypadView.hit? (w.layout bounds).keypad row col with
            | none =>
                obtain ⟨panel, same⟩ := w.click_elsewhere loop (.inr hit)
                rw [same]
                exact unstuck
            | some button =>
                obtain ⟨keypad, downs, pends⟩ := w.click_button loop inside hit
                intro code held
                by_cases same : code = button.code
                · exact .inr (.inr (keypad.trans (by rw [same])))
                · have before : code ∈ down w.rig := by simpa [same] using (downs code).mp held
                  rcases unstuck code before with pending | drained | remembered
                  · exact .inl ((pends code).mpr pending)
                  · exact .inr (.inl drained)
                  · refine Classical.byContradiction fun lost => keeps ?_
                    refine ⟨row, col, button, code, rfl, inside, hit, remembered, same, before, ?_, ?_⟩
                    · exact fun pending => lost (.inl ((pends code).mpr pending))
                    · exact fun drained => lost (.inr (.inl drained))
    | release row col => exact unstuck.release row col bounds
    | _ => exact unstuck

/-! ## Histories -/

/-- Of all that comes from outside only such a press makes a key stuck. -/
theorem unstuck_perform_iff (unstuck : w.Unstuck batch loop) (a : Act) (outside : a.isOutside = true) :
    (w.perform loop a).2.1.Unstuck batch (w.perform loop a).2.2 ↔
      ∀ input bounds, a = .mouse input bounds → ¬w.Forgets batch loop input bounds := by
  cases a with
  | event | drain => cases outside
  | mouse input bounds =>
      refine (unstuck_mouse_iff unstuck input bounds).trans ⟨?_, fun keeps => keeps input bounds rfl⟩
      rintro keeps _ _ ⟨⟩
      exact keeps
  | dialog input bounds =>
      obtain ⟨calm, keypad⟩ := w.calm_dialogEvent loop input bounds
      exact iff_of_true (unstuck.calm calm keypad) nofun
  | inspector input bounds =>
      have edited := KeyHolder.keeps.inspector w.panel w.rig input (w.layout bounds).panel
      exact iff_of_true (unstuck.calm (.of_rig edited rfl) rfl) nofun
  | press code => exact iff_of_true (unstuck.pressKey code) nofun
  | paste | toggleInspector | blurInspector | advance => exact iff_of_true unstuck nofun

/-- A window that is driven by its loop, with no key stuck. -/
structure Accounted (batch : List SimEvent) (w : Window σ) (loop : EventLoop SimEvent) : Prop where
  driven : w.Driven batch loop
  unstuck : w.Unstuck batch loop

namespace Accounted

theorem opened (name : String) {rig : σ} (settings : SimulatorSettings) (up : down rig = [])
    (posted : loop.posted = []) (timers : loop.timers = []) : (Window.opened name rig settings).Accounted [] loop := by
  refine ⟨.opened name rig settings loop posted timers, fun code held => ?_⟩
  have held : code ∈ down rig := held
  simp [up] at held

theorem transition (accounted : w.Accounted batch loop) (t : Lifecycle.Transition) :
    (w.transition t loop).1.Accounted batch (w.transition t loop).2 :=
  ⟨accounted.driven.transition t, accounted.unstuck.transition accounted.driven.kept.toOwned t⟩

theorem drain (accounted : w.Accounted [] loop) : w.Accounted loop.drain.1 loop.drain.2 :=
  ⟨accounted.driven.drain, accounted.unstuck.drain⟩

theorem next {event : SimEvent} (accounted : w.Accounted (event :: batch) loop) :
    (w.handle event loop).2.1.Accounted batch (w.handle event loop).2.2 :=
  ⟨accounted.driven.next, accounted.unstuck.handle accounted.driven.kept.toOwned⟩

/-- A notice is answered by a transition like any other. -/
theorem raise {h : Host σ} (accounted : h.window.Accounted batch h.loop) (event : Lifecycle.Event) :
    (h.raise event).window.Accounted batch (h.raise event).loop :=
  h.raise_keeps (motive := fun h => h.window.Accounted batch h.loop) event accounted fun t => (·.transition t)

theorem touch {h : Host σ} {a : Act}
    (performed : (h.window.perform h.loop a).2.1.Accounted batch (h.window.perform h.loop a).2.2) :
    (h.touch a).window.Accounted batch (h.touch a).loop :=
  h.touch_keeps (motive := fun h => h.window.Accounted batch h.loop) a performed fun t => (·.transition t)

theorem act (accounted : w.Accounted batch loop) {a : Act} (outside : a.isOutside = true)
    (keeps : ∀ input bounds, a = .mouse input bounds → ¬w.Forgets batch loop input bounds) :
    (w.perform loop a).2.1.Accounted batch (w.perform loop a).2.2 :=
  ⟨accounted.driven.act a outside, (unstuck_perform_iff accounted.unstuck a outside).mpr keeps⟩

end Accounted

end Window

end PocketBasic
