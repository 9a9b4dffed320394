import PocketBasic.Proofs.Simulator.BenchMap
import PocketBasic.Proofs.Simulator.Host

/-! # The window does not look inside

Seen with another rig that cannot be told apart from its own, a window makes the same of every act and of every
transition of the lifecycle.
-/

namespace PocketBasic

variable {σ τ : Type}

namespace Window

/-- The same window seen with another rig. -/
def map (f : σ → τ) (w : Window σ) : Window τ :=
  ⟨w.name, f w.rig, w.scheduler, w.display, w.keypad, w.dialog, w.panel, w.status, w.message, w.keyRelease⟩

theorem bench_map (f : σ → τ) (w : Window σ) (loop : EventLoop SimEvent) :
    (w.map f).bench loop = (w.bench loop).map f := rfl

theorem settle_map (f : σ → τ) (w : Window σ) (b : Bench σ) :
    (w.map f).settle (b.map f) = Prod.map (map f) id (w.settle b) := rfl

variable [Engine σ] [Device σ] [Engine τ] [Device τ] {f : σ → τ} (hom : Rig.Hom f) (w : Window σ)
  (loop : EventLoop SimEvent)

include hom

theorem map_closeDialog : (w.map f).closeDialog = w.closeDialog.map f := by
  obtain ⟨name, rig, scheduler, display, keypad, dialog, panel, status, message, keyRelease⟩ := w
  cases dialog with
  | none => rfl
  | some d =>
      simp only [closeDialog, map, hom.cancelDialog]
      rfl

theorem map_copy (area : Option PixelRect) : (w.map f).copy area = (w.copy area).map f := by
  cases area with
  | none => rfl
  | some area => simp only [copy, map, Display.copy, hom.pixel]

theorem map_copyDirty : (w.map f).copyDirty = w.copyDirty.map f := by
  unfold copyDirty
  rw [← map_copy hom]
  simp only [map, hom.takeDirty]

/-! ## Acts of the user -/

theorem map_inspectorEvent (input : Input) (bounds : CellRect) :
    (w.map f).inspectorEvent input bounds = Prod.map id (map f) (w.inspectorEvent input bounds) := by
  have handled := hom.inspector w.panel w.rig input (w.layout bounds).panel
  have layout : (w.map f).layout bounds = w.layout bounds := rfl
  unfold inspectorEvent
  rw [layout]
  simp only [map, handled]
  rfl

theorem map_dialogEvent (input : Input) (bounds : CellRect) :
    (w.map f).dialogEvent input bounds loop =
      Prod.map id (Prod.map (map f) id) (w.dialogEvent input bounds loop) := by
  obtain ⟨name, rig, scheduler, display, keypad, dialog, panel, status, message, keyRelease⟩ := w
  cases dialog with
  | none => rfl
  | some d =>
      simp only [dialogEvent, map, hom.dialog]
      cases d.handle rig input (dialogRect bounds d) with
      | mk outcome rest =>
          cases outcome with
          | pending | cancelled => rfl
          | accepted values =>
              have provided := Bench.map_provide ⟨scheduler, rest.2, loop⟩ hom values
              simp only [Prod.map, id, bench, Bench.map] at provided ⊢
              rw [provided]
              rfl

theorem map_pressKey (code : UInt8) :
    (w.map f).pressKey code loop = Prod.map (map f) id (w.pressKey code loop) := by
  unfold pressKey
  rw [apply_ite (Prod.map (map f) id), bench_map, Bench.map_keyDown _ hom, settle_map]
  rfl

theorem map_keypadEvent (input : Input) (bounds : CellRect) :
    (w.map f).keypadEvent input bounds loop =
      Prod.map id (Prod.map (map f) id) (w.keypadEvent input bounds loop) := by
  unfold keypadEvent
  have layout : (w.map f).layout bounds = w.layout bounds := rfl
  have keypad : (w.map f).keypad = w.keypad := rfl
  rw [layout, keypad]
  cases w.keypad.handle input (w.layout bounds).keypad with
  | mk result keypad =>
      let touched : Window σ := { w with keypad }
      cases result with
      | keyDown code =>
          change (if w.scheduler.running then
              (true, (touched.map f).settle (((touched.bench loop).map f).keyDown code))
            else (true, touched.map f, loop)) = _
          dsimp only
          rw [Bench.map_keyDown _ hom, settle_map, apply_ite (Prod.map id (Prod.map (map f) id))]
          rfl
      | keyUp code =>
          change (true, (touched.map f).settle (((touched.bench loop).map f).keyUp code)) = _
          rw [Bench.map_keyUp _ hom, settle_map]
          rfl
      | _ => rfl

theorem map_mouseEvent (input : Input) (bounds : CellRect) :
    (w.map f).mouseEvent input bounds loop =
      Prod.map id (Prod.map (map f) id) (w.mouseEvent input bounds loop) := by
  have inspected := map_inspectorEvent hom w input bounds
  unfold mouseEvent
  split
  · rw [apply_ite (Prod.map id (Prod.map (map f) id)), inspected]
    exact ite_congr rfl (fun _ => rfl) fun _ => map_keypadEvent hom w.blurInspector loop _ bounds
  · exact map_keypadEvent hom w loop _ bounds

/-! ## Transitions and events of the loop -/

omit [Engine τ] [Device τ] hom in
theorem follow_stopped (source : Lifecycle) (event : Lifecycle.Event) :
    w.follow ⟨source, .stopped, event⟩ loop =
      let stopped := (w.closeDialog.bench loop).stop
      let message := match stopped.1 with
        | some text => some ("Runtime error: " ++ text)
        | none => w.closeDialog.message
      ({ (w.closeDialog.settle stopped.2).1.copyDirty with message, status := .finished }, stopped.2.loop) := by
  cases source <;> rfl

theorem map_follow (t : Lifecycle.Transition) :
    (w.map f).follow t loop = Prod.map (map f) id (w.follow t loop) := by
  obtain ⟨source, target, event⟩ := t
  have continued : ({ w with status := .running }.map f).settle ((w.bench loop).map f).cont =
      Prod.map (map f) id ({ w with status := .running }.settle (w.bench loop).cont) := by
    rw [Bench.map_cont, settle_map]
  have paused : ({ w with status := .paused }.map f).settle ((w.bench loop).map f).pause =
      Prod.map (map f) id ({ w with status := .paused }.settle (w.bench loop).pause) := by
    rw [Bench.map_pause, settle_map]
  have closed := map_closeDialog hom w
  cases target with
  | started =>
      cases source with
      | stopped =>
          simp only [follow, closed]
          let opened : Window σ := { w.closeDialog with message := none, status := .running }
          change (opened.map f).settle ((opened.bench loop).map f).start = _
          rw [Bench.map_start _ hom, settle_map]
      | started | paused => exact continued
  | paused => cases source <;> exact paused
  | stopped =>
      rw [follow_stopped, follow_stopped, closed, bench_map, Bench.map_stop _ hom]
      simp only [Prod.map, settle_map, map_copyDirty hom]
      rfl

theorem map_transition (t : Lifecycle.Transition) :
    (w.map f).transition t loop = Prod.map (map f) id (w.transition t loop) := by
  unfold transition
  rw [map_follow hom]
  simp only [Prod.map, map, hom.store, id]

theorem map_handle (event : SimEvent) :
    (w.map f).handle event loop = Prod.map id (Prod.map (map f) id) (w.handle event loop) := by
  cases event with
  | runStep =>
      simp only [handle, bench_map, Bench.map_step _ hom]
      cases (w.bench loop).step with
      | mk result b => cases result <;> rfl
  | sleepElapsed generation =>
      simp only [handle, bench_map, Bench.map_wake]
      rfl
  | repaintTick =>
      simp only [handle, bench_map, Bench.map_repaintTick _ hom, Prod.map, settle_map, map_copy hom]
      rfl
  | cursorTick =>
      simp only [handle, bench_map, Bench.map_blinkTick _ hom]
      rfl
  | keyRelease code =>
      simp only [handle, bench_map, Bench.map_keyUp _ hom]
      rfl

theorem map_perform (a : Act) :
    (w.map f).perform loop a = Prod.map id (Prod.map (map f) id) (w.perform loop a) := by
  cases a with
  | event event => exact map_handle hom w loop event
  | dialog input bounds => exact map_dialogEvent hom w loop input bounds
  | mouse input bounds => exact congrArg (fun r => (none, r.2)) (map_mouseEvent hom w loop input bounds)
  | inspector input bounds =>
      exact congrArg (fun r => (none, r.2, loop)) (map_inspectorEvent hom w input bounds)
  | press code => exact congrArg (Prod.mk none) (map_pressKey hom w loop code)
  | paste | toggleInspector | blurInspector | drain | advance => rfl

end Window

namespace Host

/-- The same host seen with another rig. -/
def map (f : σ → τ) (h : Host σ) : Host τ := ⟨h.lifecycle, h.window.map f, h.loop⟩

variable [Engine σ] [Device σ] [Engine τ] [Device τ] {f : σ → τ} (hom : Rig.Hom f) (h : Host σ)

include hom

theorem map_raise (event : Lifecycle.Event) : (h.map f).raise event = (h.raise event).map f := by
  unfold raise map
  cases h.lifecycle.dispatch event with
  | mk transition lifecycle =>
      cases transition with
      | none => rfl
      | some t =>
          dsimp only
          rw [Window.map_transition hom]
          rfl

theorem map_touch (a : Window.Act) : (h.map f).touch a = (h.touch a).map f := by
  have performed := Window.map_perform hom h.window h.loop a
  have same : (h.map f).window.perform (h.map f).loop a = (h.window.map f).perform h.loop a := rfl
  unfold touch
  rw [same, performed]
  cases h.window.perform h.loop a with
  | mk notice state =>
      cases notice with
      | none => rfl
      | some notice => exact map_raise hom { h with window := state.1, loop := state.2 } .stop

end Host

end PocketBasic
