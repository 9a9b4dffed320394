import PocketBasic.Simulator.Window

/-! # Hosts

A window does nothing by itself. Its host hands it what the user does and what the loop delivers, raises
the events of the lifecycle, and answers every notice of the window with a stop. This is all that can
happen to a window, whatever the application around it looks like; which event comes when is left open,
and an event of the simulator may come although the loop never delivered it.
-/

namespace PocketBasic

/-- What can reach a window between two transitions of the lifecycle. -/
inductive Window.Act where
  | event (event : SimEvent)
  | dialog (input : Input) (bounds : CellRect)
  | mouse (input : Input) (bounds : CellRect)
  | inspector (input : Input) (bounds : CellRect)
  /-- A key of the host that the handset has. -/
  | press (code : UInt8)
  | paste (text : List Char)
  | toggleInspector
  | blurInspector
  /-- Take what is ready off the loop. -/
  | drain
  | advance (ms : Nat)
  deriving Repr, DecidableEq

/-- The act is for a view that converts what is typed into it. -/
def Window.Act.isTyped : Window.Act → Bool
  | .dialog _ _ | .inspector _ _ => true
  | _ => false

/-- A window and its loop after an act, and the notice that the window gives. -/
def Window.perform {σ : Type} [Engine σ] [Device σ] (w : Window σ) (loop : EventLoop SimEvent) :
    Window.Act → Option Notice × Window σ × EventLoop SimEvent
  | .event event => w.handle event loop
  | .dialog input bounds => w.dialogEvent input bounds loop
  | .mouse input bounds => (none, (w.mouseEvent input bounds loop).2)
  | .inspector input bounds => (none, (w.inspectorEvent input bounds).2, loop)
  | .press code => (none, w.pressKey code loop)
  | .paste text => (none, w.paste text, loop)
  | .toggleInspector => (none, w.toggleInspector, loop)
  | .blurInspector => (none, w.blurInspector, loop)
  | .drain => (none, w, loop.drain.2)
  | .advance ms => (none, w, loop.advance ms)

/-- What can be asked of a window by a host that does not keep to the lifecycle. -/
inductive Window.Demand where
  | transition (t : Lifecycle.Transition)
  | act (a : Window.Act)
  | close
  deriving Repr, DecidableEq

/-- Meets a demand. What becomes of a notice is up to the demands that follow. -/
def Window.meet {σ : Type} [Engine σ] [Device σ] (state : Window σ × EventLoop SimEvent) :
    Window.Demand → Window σ × EventLoop SimEvent
  | .transition t => state.1.transition t state.2
  | .act a => (state.1.perform state.2 a).2
  | .close => state.1.close state.2

namespace Window

variable {σ : Type}

/-- The windows differ in nothing but the inspector, the keypad and the texts around the picture. -/
structure Alike (w other : Window σ) : Prop where
  scheduler : other.scheduler = w.scheduler
  rig : other.rig = w.rig
  dialog : other.dialog = w.dialog
  display : other.display = w.display
  status : other.status = w.status

theorem Alike.refl (w : Window σ) : w.Alike w := ⟨rfl, rfl, rfl, rfl, rfl⟩

/-- A window that has taken over what its scheduler did, up to the inspector and the keypad. -/
abbrev Settled (w : Window σ) (b : Bench σ) (other : Window σ) : Prop := (w.settle b).1.Alike other

variable [Device σ] (w : Window σ) (loop : EventLoop SimEvent)

@[elab_as_elim]
theorem pressKey_cases {motive : Window σ × EventLoop SimEvent → Prop} (code : UInt8)
    (down : ∀ later, motive ((w.settle ((w.bench loop).keyDown code)).1, later))
    (halted : motive (w, loop)) : motive (w.pressKey code loop) := by
  unfold pressKey
  split
  · exact down _
  · exact halted

@[elab_as_elim]
theorem keypadEvent_cases {motive : Window σ × EventLoop SimEvent → Prop} (input : Input)
    (bounds : CellRect)
    (down : ∀ other code later, w.Settled ((w.bench loop).keyDown code) other → motive (other, later))
    (up : ∀ other code later, w.Settled ((w.bench loop).keyUp code) other → motive (other, later))
    (ignored : ∀ other, w.Alike other → motive (other, loop)) :
    motive (w.keypadEvent input bounds loop).2 := by
  have touched (keypad : KeypadView) : w.Alike { w with keypad } := ⟨rfl, rfl, rfl, rfl, rfl⟩
  unfold keypadEvent
  dsimp only
  split
  · split
    · exact down _ _ _ ⟨rfl, rfl, rfl, rfl, rfl⟩
    · exact ignored _ (touched _)
  · exact up _ _ _ ⟨rfl, rfl, rfl, rfl, rfl⟩
  · exact ignored _ (touched _)

variable [Engine σ]

omit [Device σ] in
theorem alike_inspectorEvent (input : Input) (bounds : CellRect)
    (rig : (w.panel.handle w.rig input (w.layout bounds).panel).2.2 = w.rig) :
    w.Alike (w.inspectorEvent input bounds).2 :=
  ⟨rfl, rig, rfl, rfl, rfl⟩

omit [Device σ] in
/-- A click selects in the inspector, and changes nothing behind it. -/
theorem alike_clicked (row col : Nat) (bounds : CellRect) :
    w.Alike (w.inspectorEvent (.click row col) bounds).2 := by
  refine w.alike_inspectorEvent _ bounds ?_
  unfold InspectorPanel.handle
  dsimp only [Input.position?]
  split <;> rfl

/-! ## Clicks

Stated with projections, so that nothing has to look into the inspector. -/

/-- A click into the inspector is for the inspector. -/
theorem mouseEvent_inside {row col : Nat} {bounds : CellRect}
    (inside : (w.layout bounds).panel.contains row col = true) :
    (w.mouseEvent (.click row col) bounds loop).2 =
      ((w.inspectorEvent (.click row col) bounds).2, loop) := by
  rw [mouseEvent, if_pos inside]

theorem mouseEvent_outside {row col : Nat} {bounds : CellRect}
    (outside : (w.layout bounds).panel.contains row col = false) :
    (w.mouseEvent (.click row col) bounds loop).2 =
      (w.blurInspector.keypadEvent (.click row col) bounds loop).2 := by
  rw [mouseEvent, if_neg (by simp [outside])]

omit [Device σ] in
/-- A click into the inspector stays there. -/
theorem exists_clicked (row col : Nat) (bounds : CellRect) :
    ∃ panel, (w.inspectorEvent (.click row col) bounds).2 = { w with panel } := by
  have edited : ∃ panel rig, (w.inspectorEvent (.click row col) bounds).2 = { w with panel, rig } := by
    unfold inspectorEvent
    exact ⟨_, _, rfl⟩
  have same := (w.alike_clicked row col bounds).rig
  obtain ⟨panel, rig, edited⟩ := edited
  rw [edited] at same
  subst same
  exact ⟨panel, edited⟩

/-- Everything that an act does to a window: an event of the loop and one of the dialog are what they are, and
    so is a key for the inspector; any other act moves a key of the handset, pastes, or does nothing that
    counts. -/
@[elab_as_elim]
theorem perform_cases {motive : Option Notice × Window σ × EventLoop SimEvent → Prop} (a : Act)
    (event : a.isTyped = false → ∀ event, motive (w.handle event loop))
    (dialog : ∀ input bounds, a = .dialog input bounds → motive (w.dialogEvent input bounds loop))
    (edited : ∀ input bounds, a = .inspector input bounds →
      motive (none, (w.inspectorEvent input bounds).2, loop))
    (down : a.isTyped = false → ∀ other code later, w.Settled ((w.bench loop).keyDown code) other →
      motive (none, other, later))
    (up : a.isTyped = false → ∀ other code later, w.Settled ((w.bench loop).keyUp code) other →
      motive (none, other, later))
    (pasted : a.isTyped = false → ∀ text, motive (none, w.paste text, loop))
    (ignored : a.isTyped = false → ∀ other later, w.Alike other → motive (none, other, later)) :
    motive (w.perform loop a) := by
  have keypad (quiet : a.isTyped = false) (other : Window σ) (same : w.Alike other) (input : Input)
      (bounds : CellRect) : motive (none, (other.keypadEvent input bounds loop).2) := by
    obtain ⟨scheduler, rig, dialog, display, status⟩ := same
    have bench : other.bench loop = w.bench loop := by rw [bench, scheduler, rig]; rfl
    refine other.keypadEvent_cases loop input bounds ?down ?up ?ignored
    case down =>
      intro third code later settled
      rw [bench] at settled
      exact down quiet third code later
        ⟨settled.1, settled.2, settled.3.trans dialog, settled.4.trans display, settled.5.trans status⟩
    case up =>
      intro third code later settled
      rw [bench] at settled
      exact up quiet third code later
        ⟨settled.1, settled.2, settled.3.trans dialog, settled.4.trans display, settled.5.trans status⟩
    case ignored =>
      intro third alike
      exact ignored quiet third loop ⟨alike.1.trans scheduler, alike.2.trans rig, alike.3.trans dialog,
        alike.4.trans display, alike.5.trans status⟩
  cases a with
  | event event' => exact event rfl event'
  | dialog input bounds => exact dialog input bounds rfl
  | mouse input bounds =>
      change motive (none, (w.mouseEvent input bounds loop).2)
      unfold Window.mouseEvent
      split
      · split
        · exact ignored rfl _ loop (w.alike_clicked _ _ bounds)
        · exact keypad rfl w.blurInspector ⟨rfl, rfl, rfl, rfl, rfl⟩ _ bounds
      · exact keypad rfl w (.refl w) _ bounds
  | inspector input bounds => exact edited input bounds rfl
  | press code =>
      refine w.pressKey_cases loop (motive := fun state => motive (none, state)) code ?_ ?_
      · exact fun later => down rfl _ code later (.refl _)
      · exact ignored rfl w loop (.refl w)
  | paste text => exact pasted rfl text
  | toggleInspector => exact ignored rfl _ loop ⟨rfl, rfl, rfl, rfl, rfl⟩
  | blurInspector => exact ignored rfl _ loop ⟨rfl, rfl, rfl, rfl, rfl⟩
  | drain => exact ignored rfl w _ (.refl w)
  | advance ms => exact ignored rfl w _ (.refl w)

end Window

/-- A window, the lifecycle of its program and the loop. -/
structure Host (σ : Type) where
  lifecycle : Lifecycle
  window : Window σ
  loop : EventLoop SimEvent

/-- What a host does. -/
inductive Host.Act where
  | raise (event : Lifecycle.Event)
  | touch (act : Window.Act)
  deriving Repr, DecidableEq

namespace Host

variable {σ : Type}

/-- The host of a new window. -/
def opened (name : String) (rig : σ) (settings : SimulatorSettings) : Host σ :=
  ⟨.stopped, .opened name rig settings, .empty⟩

variable [Engine σ] [Device σ]

/-- Raises an event of the lifecycle. The window acts on transitions that happen. -/
def raise (h : Host σ) (event : Lifecycle.Event) : Host σ :=
  match h.lifecycle.dispatch event with
  | (none, _) => h
  | (some t, lifecycle) =>
      let (window, loop) := h.window.transition t h.loop
      ⟨lifecycle, window, loop⟩

/-- Hands an act to the window. A notice is answered at once. -/
def touch (h : Host σ) (a : Window.Act) : Host σ :=
  let (notice, window, loop) := h.window.perform h.loop a
  let h := { h with window, loop }
  match notice with
  | some _ => h.raise .stop
  | none => h

def act (h : Host σ) : Act → Host σ
  | .raise event => h.raise event
  | .touch a => h.touch a

/-- The host after a transition. -/
def moved (h : Host σ) (t : Lifecycle.Transition) : Host σ :=
  let (window, loop) := h.window.transition t h.loop
  ⟨t.target, window, loop⟩

/-- An event of the lifecycle comes to nothing, or to one of four transitions. -/
@[elab_as_elim]
theorem raise_cases {motive : Host σ → Prop} (h : Host σ) (event : Lifecycle.Event) (kept : motive h)
    (started : h.lifecycle = .stopped → motive (h.moved ⟨.stopped, .started, event⟩))
    (paused : h.lifecycle = .started → motive (h.moved ⟨.started, .paused, event⟩))
    (continued : h.lifecycle = .paused → motive (h.moved ⟨.paused, .started, event⟩))
    (stopped : h.lifecycle ≠ .stopped → motive (h.moved ⟨h.lifecycle, .stopped, event⟩)) :
    motive (h.raise event) := by
  obtain ⟨lifecycle, w, loop⟩ := h
  cases lifecycle with
  | stopped =>
      cases event with
      | start => exact started rfl
      | pause | cont | stop => exact kept
  | started =>
      cases event with
      | pause => exact paused rfl
      | stop => exact stopped Lifecycle.noConfusion
      | start | cont => exact kept
  | paused =>
      cases event with
      | cont => exact continued rfl
      | stop => exact stopped Lifecycle.noConfusion
      | start | pause => exact kept

/-- A stop always happens when there is something to stop. -/
theorem raise_stop {h : Host σ} (running : h.lifecycle ≠ .stopped) :
    h.raise .stop = h.moved ⟨h.lifecycle, .stopped, .stop⟩ := by
  obtain ⟨lifecycle, w, loop⟩ := h
  cases lifecycle with
  | stopped => exact absurd rfl running
  | started | paused => rfl

theorem lifecycle_raise_stop (h : Host σ) : (h.raise .stop).lifecycle = .stopped := by
  obtain ⟨lifecycle, window, loop⟩ := h
  cases lifecycle <;> rfl

end Host

end PocketBasic
