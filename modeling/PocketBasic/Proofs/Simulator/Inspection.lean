import PocketBasic.Proofs.Inspector.Fresh
import PocketBasic.Proofs.Simulator.InStep
import PocketBasic.Proofs.Simulator.Rest
import PocketBasic.Proofs.Simulator.Stage

/-! # The inspector of a window

A variable changes when a batch is run, when a program is started and when the inspector stores a value.
Batches are run while the program is started, and then the inspector is switched off; every transition
builds its list anew. So whenever variables are shown they are those of the engine, and whenever they can
change behind the inspector it shows none.
-/

namespace PocketBasic

variable {b : Bench Computer}

/-! ## What leaves the variables alone -/

namespace Bench

/-- Without a batch no variable changes. -/
theorem store_handle (halted : (b.scheduler.running && !b.scheduler.paused) = false)
    (event : SimEvent) : Engine.store (b.handle event).rig = Engine.store b.rig :=
  b.handle_halted_cases halted event (fun _ => rfl) (fun _ _ _ _ => rfl) (fun _ => rfl)
    (fun _ _ _ => rfl) (fun _ _ => rfl) fun _ => rfl

theorem store_keyDown (key : UInt8) : Engine.store (b.keyDown key).rig = Engine.store b.rig := by
  refine b.keyDown_cases key ?resumed ?buffered
  case resumed =>
    intro _ _ _
    rw [rig_schedule]
    rfl
  case buffered => exact fun _ => rfl

/-- The answers wait for the next batch. -/
theorem store_provide (values : List Answer) :
    Engine.store (b.provide values).rig = Engine.store b.rig := by
  refine b.provide_cases values ?accepted ?refused
  case accepted =>
    intro _
    rw [rig_schedule]
  case refused => exact fun _ => Computer.stores.kept.foldl_release values b.rig

/-- What a run has left can be looked at after it. -/
theorem store_stop (b : Bench Computer) : Engine.store b.stop.2.rig = Engine.store b.rig := by
  obtain ⟨rig, aside, stopped⟩ := b.stage_stop
  have same : b.stop.2.rig = rig := congrArg Stage.rig stopped
  rw [same]
  refine aside.kept (fun _ _ => rfl) (fun _ => rfl) (fun _ => rfl) (fun _ => rfl) ?_
    (fun _ _ => rfl) fun _ => rfl
  intro rig other missed
  have same : (Device.takeKey rig).2 = other := congrArg Prod.snd missed
  rw [← same]
  rfl

end Bench

namespace Window

variable {w : Window Computer} {loop : EventLoop SimEvent} {lifecycle : Lifecycle} {begun : Bool}

/-- The inspector is switched off while the program is started, and shows what is stored otherwise. -/
def Inspected (lifecycle : Lifecycle) (w : Window Computer) : Prop :=
  w.panel.Fresh (decide (lifecycle ≠ .started)) (Engine.store w.rig)

/-! ## What reaches the inspector -/

/-- The inspector and the variables are as before. -/
structure Overlooks (w other : Window Computer) : Prop where
  panel : other.panel = w.panel
  store : Engine.store other.rig = Engine.store w.rig

theorem overlooks_keypadEvent (w : Window Computer) (input : Input) (bounds : CellRect)
    (loop : EventLoop SimEvent) : w.Overlooks (w.keypadEvent input bounds loop).2.1 := by
  unfold keypadEvent
  dsimp only
  split
  · split
    · exact ⟨rfl, Bench.store_keyDown (b := w.bench loop) _⟩
    · exact ⟨rfl, rfl⟩
  · exact ⟨rfl, rfl⟩
  · exact ⟨rfl, rfl⟩

theorem overlooks_pressKey (w : Window Computer) (code : UInt8) (loop : EventLoop SimEvent) :
    w.Overlooks (w.pressKey code loop).1 := by
  unfold pressKey
  split
  · exact ⟨rfl, Bench.store_keyDown (b := w.bench loop) code⟩
  · exact ⟨rfl, rfl⟩

theorem overlooks_dialogEvent (w : Window Computer) (input : Input) (bounds : CellRect)
    (loop : EventLoop SimEvent) : w.Overlooks (w.dialogEvent input bounds loop).2.1 := by
  unfold dialogEvent
  split
  · exact ⟨rfl, rfl⟩
  · rename_i d _
    have kept := Computer.stores.kept.dialog d w.rig input (dialogRect bounds d)
    split
    all_goals
      rename_i handled
      rw [handled] at kept
    · exact ⟨rfl, kept⟩
    · exact ⟨rfl, (Bench.store_provide _).trans kept⟩
    · exact ⟨rfl, kept⟩

/-- What the user does goes past the inspector, moves the keyboard to it or away, or is for it. -/
@[elab_as_elim]
theorem inspected_perform_cases {motive : Window Computer → Prop} (a : Act)
    (user : ∀ event, a ≠ .event event)
    (overlooked : ∀ other, w.Overlooks other → motive other)
    (focused : ∀ focused other, Overlooks { w with panel := w.panel.setFocus focused } other →
      motive other)
    (told : ∀ input bounds, motive (w.inspectorEvent input bounds).2) :
    motive (w.perform loop a).2.1 := by
  have same : motive w := overlooked w ⟨rfl, rfl⟩
  cases a with
  | event event => exact absurd rfl (user event)
  | dialog input bounds => exact overlooked _ (w.overlooks_dialogEvent input bounds loop)
  | mouse input bounds =>
      change motive (w.mouseEvent input bounds loop).2.1
      cases input with
      | click row col =>
          cases inside : (w.layout bounds).panel.contains row col with
          | true =>
              have clicked : (w.mouseEvent (.click row col) bounds loop).2.1 =
                  (w.inspectorEvent (.click row col) bounds).2 := by
                rw [w.mouseEvent_inside loop inside]
              rw [clicked]
              exact told (.click row col) bounds
          | false =>
              rw [w.mouseEvent_outside loop inside]
              exact focused false _ (w.blurInspector.overlooks_keypadEvent _ bounds loop)
      | _ => exact overlooked _ (w.overlooks_keypadEvent _ bounds loop)
  | inspector input bounds => exact told input bounds
  | press code => exact overlooked _ (w.overlooks_pressKey code loop)
  | paste text => exact overlooked _ ⟨rfl, rfl⟩
  | toggleInspector => exact focused _ _ ⟨rfl, rfl⟩
  | blurInspector => exact focused _ _ ⟨rfl, rfl⟩
  | drain | advance => exact same

theorem panel_copy (w : Window Computer) (area : Option PixelRect) :
    (w.copy area).panel = w.panel := by
  unfold copy
  split <;> rfl

theorem panel_handle (w : Window Computer) (event : SimEvent) (loop : EventLoop SimEvent) :
    (w.handle event loop).2.1.panel = w.panel := by
  cases event with
  | runStep =>
      simp only [handle]
      cases (w.bench loop).step.1 <;> rfl
  | repaintTick => exact panel_copy _ _
  | sleepElapsed | cursorTick | keyRelease => rfl

namespace Inspected

theorem overlook {other : Window Computer} (inspected : w.Inspected lifecycle)
    (overlooks : w.Overlooks other) : other.Inspected lifecycle := by
  unfold Inspected
  rw [overlooks.panel, overlooks.store]
  exact inspected

/-- Nothing is shown of a program that is started, so its variables may change. -/
theorem handle (inspected : w.Inspected lifecycle) (inStep : w.InStep lifecycle begun)
    (event : SimEvent) : (w.handle event loop).2.1.Inspected lifecycle := by
  have rig : (w.handle event loop).2.1.rig = ((w.bench loop).handle event).rig :=
    congrArg Bench.rig (w.bench_handle event loop)
  have panel := w.panel_handle event loop
  by_cases started : lifecycle = .started
  · subst started
    unfold Inspected at inspected ⊢
    rw [panel]
    exact inspected.hidden _
  · refine inspected.overlook ⟨panel, ?_⟩
    have halted : (w.scheduler.running && !w.scheduler.paused) = false := by
      rw [inStep.running, inStep.paused]
      cases lifecycle with
      | started => exact absurd rfl started
      | stopped | paused => rfl
    rw [rig]
    exact Bench.store_handle (b := w.bench loop) halted event

theorem perform (inspected : w.Inspected lifecycle) (inStep : w.InStep lifecycle begun) (a : Act) :
    (w.perform loop a).2.1.Inspected lifecycle := by
  by_cases delivered : ∃ event, a = .event event
  · obtain ⟨event, rfl⟩ := delivered
    exact inspected.handle inStep event
  · refine w.inspected_perform_cases a (fun event same => delivered ⟨event, same⟩)
      ?overlooked ?focused ?told
    case overlooked => exact fun other => inspected.overlook
    case focused =>
      intro focused other overlooks
      have moved : Inspected lifecycle { w with panel := w.panel.setFocus focused } :=
        InspectorPanel.Fresh.setFocus inspected.model focused
      exact moved.overlook overlooks
    case told => exact fun input bounds => InspectorPanel.Fresh.handle Computer.stores inspected input _

end Inspected

/-! ## Transitions -/

theorem panel_follow (w : Window Computer) (t : Lifecycle.Transition) (loop : EventLoop SimEvent) :
    (w.follow t loop).1.panel = w.panel := by
  have closed (w : Window Computer) : w.closeDialog.panel = w.panel := by
    unfold closeDialog
    split <;> rfl
  obtain ⟨source, target, event⟩ := t
  cases target with
  | stopped => cases source <;> exact (panel_copy _ _).trans (closed w)
  | paused => cases source <;> rfl
  | started =>
      cases source with
      | stopped => exact closed w
      | started | paused => rfl

/-- A transition builds the list anew, whatever it was before. -/
theorem inspected_transition (editing : w.panel.editor.isSome = true → w.panel.focused = true)
    (t : Lifecycle.Transition) : (w.transition t loop).1.Inspected t.target := by
  have editable :
      (Toolbar.ofState t.target true).inspectorEditable = decide (t.target ≠ .started) := by
    cases t.target <;> rfl
  have same := w.panel_follow t loop
  unfold transition
  cases followed : w.follow t loop with
  | mk other later =>
      rw [followed] at same
      change other.panel = w.panel at same
      rw [← same] at editing
      dsimp only
      rw [editable]
      exact .setEnabled editing _ _

/-- A stop closes the dialog and the run, and leaves what can be looked at. -/
theorem store_stopped (w : Window Computer) (loop : EventLoop SimEvent) (source : Lifecycle)
    (event : Lifecycle.Event) :
    Engine.store (w.transition ⟨source, .stopped, event⟩ loop).1.rig = Engine.store w.rig := by
  have closed : Engine.store w.closeDialog.rig = Engine.store w.rig := by
    unfold closeDialog
    split
    · exact Computer.stores.kept.cancelDialog _ w.rig
    · rfl
  have stopped := (w.closeDialog.bench loop).store_stop
  have copied (w : Window Computer) : Engine.store w.copyDirty.rig = Engine.store w.rig := by
    unfold copyDirty
    rw [rig_copy]
    rfl
  cases source
  all_goals exact (copied _).trans (stopped.trans closed)

end Window

namespace Host

variable {h : Host Computer} {begun : Bool}

/-- The inspector of the window goes by the lifecycle of the host. -/
def Inspected (h : Host Computer) : Prop := h.window.Inspected h.lifecycle

namespace Inspected

theorem moved (inspected : h.Inspected) (t : Lifecycle.Transition) : (h.moved t).Inspected :=
  Window.inspected_transition inspected.editing t

theorem raise (inspected : h.Inspected) (event : Lifecycle.Event) : (h.raise event).Inspected := by
  refine raise_cases (motive := Inspected) h event ?kept ?started ?paused ?continued ?stopped
  case kept => exact inspected
  all_goals exact fun _ => inspected.moved _

theorem touch (inspected : h.Inspected) (inStep : h.InStep begun) (a : Window.Act) :
    (h.touch a).Inspected := by
  have performed : (h.window.perform h.loop a).2.1.Inspected h.lifecycle :=
    Window.Inspected.perform inspected inStep a
  unfold Host.touch
  cases told : h.window.perform h.loop a with
  | mk notice state =>
      rw [told] at performed
      cases notice with
      | none => exact performed
      | some notice =>
          exact raise (h := { h with window := state.1, loop := state.2 }) performed .stop

theorem act (inspected : h.Inspected) (inStep : h.InStep begun) (a : Act) :
    (h.act a).Inspected ∧ ∃ begun, (h.act a).InStep begun := by
  cases a with
  | raise event => exact ⟨inspected.raise event, _, inStep.raise event⟩
  | touch a => exact ⟨inspected.touch inStep a, _, inStep.touch a⟩

theorem run (inspected : h.Inspected) (inStep : h.InStep begun) (acts : List Act) :
    (acts.foldl Host.act h).Inspected := by
  induction acts generalizing h begun with
  | nil => exact inspected
  | cons a rest ih =>
      obtain ⟨next, _, still⟩ := inspected.act inStep a
      exact ih next still

/-- While the program is started nothing that the user does changes a variable, not even what ends in a
    stop. -/
theorem store_touch (inspected : h.Inspected) (started : h.lifecycle = .started) (a : Window.Act)
    (user : ∀ event, a ≠ .event event) :
    Engine.store (h.touch a).window.rig = Engine.store h.window.rig := by
  have hidden : h.window.panel.Fresh false (Engine.store h.window.rig) := by
    have hidden : h.window.panel.Fresh _ _ := inspected
    rw [started] at hidden
    exact hidden
  have performed : Engine.store (h.window.perform h.loop a).2.1.rig = Engine.store h.window.rig := by
    refine h.window.inspected_perform_cases a user ?overlooked ?focused ?told
    case overlooked => exact fun other overlooks => overlooks.store
    case focused => exact fun focused other overlooks => overlooks.store
    case told => exact fun input bounds => congrArg Engine.store (hidden.handle_of_disabled input _)
  unfold Host.touch
  cases told : h.window.perform h.loop a with
  | mk notice state =>
      rw [told] at performed
      cases notice with
      | none => exact performed
      | some notice =>
          dsimp only
          rw [raise_stop (by rw [started]; exact Lifecycle.noConfusion)]
          exact (state.1.store_stopped state.2 _ _).trans performed

end Inspected

/-- The inspector of the window is never out of date and never in the way of a program that runs. -/
structure FollowsEngine (h : Host Computer) : Prop where
  switch : h.window.panel.model.enabled = decide (h.lifecycle ≠ .started)
  hidden : h.window.panel.model.enabled = false →
    h.window.panel.model.rows = [] ∧ h.window.panel.focused = false ∧ h.window.panel.editor = none
  /-- What is shown are the variables as they are now, for the arrays that are expanded now. -/
  rows : h.window.panel.model.enabled = true →
    h.window.panel.model.rows =
      InspectorRow.ofStore (Engine.store h.window.rig) h.window.panel.model.expanded
  editing : h.window.panel.editor.isSome = true → h.window.panel.focused = true
  /-- No variable changes by what the user does while the program is started. -/
  locked : h.lifecycle = .started → ∀ a, (∀ event, a ≠ .event event) →
    Engine.store (h.touch a).window.rig = Engine.store h.window.rig

theorem Inspected.followsEngine (inspected : h.Inspected) : h.FollowsEngine := by
  have shown : h.window.panel.Fresh (decide (h.lifecycle ≠ .started)) (Engine.store h.window.rig) :=
    inspected
  have rows := shown.model.rows
  rw [← shown.model.switch] at rows
  refine ⟨shown.model.switch, fun off => ?_, fun on => ?_, shown.editing, inspected.store_touch⟩
  · have unfocused : h.window.panel.focused ≠ true := by
      intro focused
      have on := shown.switched focused
      rw [← shown.model.switch, off] at on
      cases on
    refine ⟨by rw [rows, off]; rfl, Bool.eq_false_iff.mpr unfocused, ?_⟩
    exact Option.not_isSome_iff_eq_none.mp fun editing => unfocused (shown.editing editing)
  · rw [rows, on]
    rfl

/-- Whatever happens to a window, in whatever order, its inspector follows the engine. -/
theorem inspector_follows_engine (name : String) (program : List Instruction)
    (settings : SimulatorSettings) (loop : EventLoop SimEvent) (acts : List Act) :
    FollowsEngine
      (acts.foldl act ⟨.stopped, .opened name (Computer.ofProgram program) settings, loop⟩) := by
  have fresh :
      Inspected ⟨.stopped, .opened name (Computer.ofProgram program) settings, loop⟩ :=
    InspectorPanel.fresh_empty
  exact (fresh.run (Window.inStep_opened name _ settings) acts).followsEngine

/-- A program that waits for a key is paused, and its variable is edited. -/
theorem inspector_follows_engine_edited :
    let program : List Instruction :=
      [.act ⟨0, 4⟩ (.assign "A%" [] (.integer 5)), .act ⟨1, 5⟩ .inkey]
    let bounds : CellRect := ⟨0, 0, 80, 40⟩
    let keys : List Input := [.enter, .backspace, .char '7', .enter]
    let opened : Host Computer :=
      ⟨.stopped, .opened "edited" (Computer.ofProgram program) .standard, .empty⟩
    let acts : List Act :=
      [.raise .start, .touch (.event .runStep), .raise .pause, .touch .toggleInspector] ++
        keys.map fun key => .touch (.inspector key bounds)
    let h := acts.foldl act opened
    h.window.panel.model.enabled = true ∧
      h.window.panel.model.rows =
        InspectorRow.ofStore (Engine.store h.window.rig) h.window.panel.model.expanded ∧
      h.window.panel.model.rows = [⟨.scalar "A%", "A%", "7"⟩] := by
  intro program bounds keys opened acts h
  have enabled : h.window.panel.model.enabled = true := by decide +kernel
  have follows : h.FollowsEngine := inspector_follows_engine "edited" program .standard .empty acts
  exact ⟨enabled, follows.rows enabled, by decide +kernel⟩

end Host

end PocketBasic
