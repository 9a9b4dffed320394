import Mathlib.Data.List.Induction
import PocketBasic.Proofs.App.Reachable
import PocketBasic.Proofs.App.Turn
import PocketBasic.Proofs.Simulator.Held

/-! # Stuck keys

The keypad hears of the mouse only while no dialog is open, and remembers one button. If the release of a
button goes to a dialog, the button stays down, and the next press on another makes the keypad forget it:
nothing is left that would lift it before the program is started again. This is the only way for a key to
stay down.
-/

namespace PocketBasic.App

/-- What can happen to an application between two pictures. A pump handles all of what it drains. -/
inductive Occurrence where
  | input (file : Option String) (input : Input)
  | paste (text : List Char)
  | advance (ms : Nat)
  | pump
  | fit (size : Nat × Nat)
  | draw
  | flush
  deriving Repr, DecidableEq

def occur (a : App) : Occurrence → App
  | .input file input => a.handle file input
  | .paste text => { a with window := a.window.map (·.paste text) }
  | .advance ms => { a with loop := a.loop.advance ms }
  | .pump => a.pump.2
  | .fit size => a.fit size
  | .draw => a.draw
  | .flush => a.flush.2

def occurAll (a : App) (os : List Occurrence) : App := os.foldl occur a

/-- The states that an application can reach are those to which such a history leads. -/
theorem reachable_iff {a : App} :
    Reachable a ↔ ∃ size settings editor os, (App.opened size settings editor).occurAll os = a := by
  constructor
  · have more {before : App} (o : Occurrence)
        (led : ∃ size settings editor os, (App.opened size settings editor).occurAll os = before) :
        ∃ size settings editor os, (App.opened size settings editor).occurAll os = before.occur o := by
      obtain ⟨size, settings, editor, os, rfl⟩ := led
      exact ⟨size, settings, editor, os ++ [o], by simp [occurAll]⟩
    intro reachable
    induction reachable with
    | opened size settings editor => exact ⟨size, settings, editor, [], rfl⟩
    | handle file input _ ih => exact more (.input file input) ih
    | paste text _ ih => exact more (.paste text) ih
    | advance ms _ ih => exact more (.advance ms) ih
    | pump _ ih => exact more .pump ih
    | fit size _ ih => exact more (.fit size) ih
    | draw _ ih => exact more .draw ih
    | flush _ ih => exact more .flush ih
  · rintro ⟨size, settings, editor, os, rfl⟩
    induction os using List.reverseRecOn with
    | nil => exact .opened size settings editor
    | append_singleton os o ih =>
        rw [occurAll, List.foldl_append, List.foldl_cons, List.foldl_nil]
        cases o with
        | input file input => exact ih.handle file input
        | paste text => exact ih.paste text
        | advance ms => exact ih.advance ms
        | pump => exact ih.pump
        | fit size => exact ih.fit size
        | draw => exact ih.draw
        | flush => exact ih.flush

open KeyHolder (down)

/-- No key of the handset is down for good: each is going to be lifted by an event on the loop, or is the
    button that the keypad remembers to be held by the mouse. -/
def Unstuck (a : App) : Prop :=
  ∀ w, a.window = some w → ∀ code, Device.isPressed w.rig code = true →
    a.loop.Pends (.keyRelease code) ∨ w.keypad.held = some code

/-- A click on a button of the keypad while the keypad remembers another, which is down and which nothing on
    the loop is going to lift. -/
def Forgets (a : App) (input : Input) : Prop :=
  ∃ w bounds row col button code, a.window = some w ∧ a.layout.simulator = some bounds ∧ w.dialog = none ∧
    input = .click row col ∧ bounds.contains row col = true ∧ (w.layout bounds).panel.contains row col = false ∧
    KeypadView.hit? (w.layout bounds).keypad row col = some button ∧ w.keypad.held = some code ∧
    code ≠ button.code ∧ Device.isPressed w.rig code = true ∧ ¬a.loop.Pends (.keyRelease code)

variable {a b : App} {w : Window Computer} {batch : List SimEvent} {deed : Deed}

theorem isPressed_iff {c : Computer} {code : UInt8} : Device.isPressed c code = true ↔ code ∈ down c :=
  List.contains_iff_mem

theorem unstuck_iff : a.Unstuck ↔ ∀ w, a.window = some w → w.Unstuck [] a.loop := by
  simp [Unstuck, Window.Unstuck, Window.WillLift, isPressed_iff]

/-- Such a click is one that the window is handed and by which its keypad forgets a button. -/
theorem forgets_iff {input : Input} :
    a.Forgets input ↔ ∃ w bounds, a.window = some w ∧
      a.inputDeed input = .act (.touch (.mouse input bounds)) ∧ w.Forgets [] a.loop input bounds := by
  constructor
  · rintro ⟨w, bounds, row, col, button, code, shown, visible, closed, rfl, inside, outside, hit, remembers, other,
      pressed, free⟩
    refine ⟨w, bounds, shown, ?_, row, col, button, code, rfl, outside, hit, remembers, other,
      isPressed_iff.mp pressed, free, List.not_mem_nil⟩
    simp [inputDeed, shown, windowDeed, Input.command?, visible, closed, Input.position?, mouseDeed, inside]
  · rintro ⟨w, bounds, shown, deed, row, col, button, code, rfl, outside, hit, remembers, other, held, free, _⟩
    simp only [inputDeed, shown, windowDeed, Input.command?, Input.position?, mouseDeed] at deed
    split at deed
    · cases deed
    · rename_i visible
      split at deed
      · simp at deed
      · rename_i closed
        split at deed
        · rename_i inside
          cases deed
          exact ⟨w, bounds, row, col, button, code, shown, visible, by simpa using closed, rfl, inside, outside, hit,
            remembers, other, isPressed_iff.mpr held, free⟩
        · simp at deed

/-- What comes of an input reaches the window from outside the loop, and as a mouse event only if it is one. -/
def Deed.Of (input : Input) : Deed → Prop
  | .act (.touch done) => done.isOutside = true ∧ ∀ other bounds, done = .mouse other bounds → other = input
  | _ => True

theorem of_commandDeed (a : App) (input : Input) (command : Command) : (a.commandDeed command).Of input := by
  cases command with
  | startPause =>
      unfold commandDeed
      cases a.lifecycle <;> trivial
  | focusInspector => exact ⟨rfl, nofun⟩
  | stop | closeSimulator | reload | quit => trivial

theorem of_mouseDeed (input : Input) (row col : Nat) (bounds : CellRect) :
    (mouseDeed input row col bounds).Of input := by
  have handed : Deed.Of input (.act (.touch (.mouse input bounds))) := ⟨rfl, by rintro _ _ ⟨⟩; rfl⟩
  unfold mouseDeed
  split
  · exact handed
  · split
    · exact handed
    · exact ⟨rfl, nofun⟩
  · split
    · exact handed
    · trivial

theorem of_keyDeed (a : App) (w : Window Computer) (input : Input) (bounds : CellRect) :
    (a.keyDeed w input bounds).Of input := by
  unfold keyDeed
  split
  · exact ⟨rfl, nofun⟩
  · split
    · exact ⟨rfl, nofun⟩
    · trivial

theorem of_inputDeed (a : App) (input : Input) : (a.inputDeed input).Of input := by
  unfold inputDeed
  split
  · unfold windowDeed
    split
    · exact a.of_commandDeed input _
    · split
      · trivial
      · split
        · split
          · trivial
          · exact ⟨rfl, nofun⟩
        · split
          · exact of_mouseDeed input _ _ _
          · exact a.of_keyDeed _ input _
  · unfold launching
    split
    · split <;> trivial
    · trivial

/-- Every window is driven by the loop and has no key stuck, and without one there is nothing left of the
    last. -/
structure Accounted (batch : List SimEvent) (a : App) : Prop where
  closed : a.window = none → a.lifecycle = .stopped ∧ a.loop.posted = [] ∧ a.loop.timers = []
  shown : ∀ w, a.window = some w → w.Accounted batch a.loop

namespace Accounted

theorem of_same (accounted : a.Accounted batch) (lifecycle : b.lifecycle = a.lifecycle)
    (window : b.window = a.window) (loop : b.loop = a.loop) : b.Accounted batch := by
  refine ⟨fun closed => ?_, fun w shown => ?_⟩
  · rw [lifecycle, loop]
    exact accounted.closed (window ▸ closed)
  · rw [loop]
    exact accounted.shown w (window ▸ shown)

theorem of_took {h : Host Computer} (took : a.Took h b) (accounted : h.window.Accounted batch h.loop) :
    b.Accounted batch := by
  refine ⟨fun closed => ?_, fun w shown => ?_⟩
  · simp [took.window] at closed
  · rw [took.window] at shown
    cases shown
    rw [took.loop]
    exact accounted

/-- A turn leaves no key stuck if the keypad keeps its button. -/
theorem turn {input : Input} (accounted : a.Accounted []) (turn : Turn a deed b) (origin : deed.Of input)
    (keeps : ∀ w bounds, a.window = some w → deed = .act (.touch (.mouse input bounds)) →
      ¬w.Forgets [] a.loop input bounds) : b.Accounted [] := by
  cases turn with
  | kept lifecycle window loop => exact accounted.of_same lifecycle window loop
  | @hosted _ w act shown took =>
      have before := accounted.shown w shown
      refine of_took took ?_
      cases act with
      | raise event => exact before.raise (h := a.hosting w) event
      | touch act =>
          obtain ⟨outside, same⟩ := origin
          refine Window.Accounted.touch (before.act outside ?_)
          rintro other bounds rfl
          obtain rfl := same other bounds rfl
          exact keeps w bounds shown rfl
  | @opened _ computer closed loaded took =>
      obtain ⟨_, posted, timers⟩ := accounted.closed closed
      refine of_took took (.opened _ _ ?_ posted timers)
      unfold Computer.load at loaded
      cases read : Source.read a.editor.source.toList with
      | error e => simp [read, Except.map] at loaded
      | ok program =>
          simp only [read, Except.map, Except.ok.injEq] at loaded
          rw [← loaded]
          rfl
  | closed shown lifecycle window loop =>
      refine ⟨fun _ => ⟨lifecycle.trans (Host.lifecycle_raise_stop _), ?_, ?_⟩, fun w still => ?_⟩
      · rw [loop]
        rfl
      · rw [loop]
        rfl
      · rw [window] at still
        cases still

theorem handle (accounted : a.Accounted []) (file : Option String) {input : Input} (keeps : ¬a.Forgets input) :
    (a.handle file input).Accounted [] := by
  refine accounted.turn (turn_handle (fun closed => (accounted.closed closed).1) file input) (a.of_inputDeed input) ?_
  exact fun w bounds shown deed forgets => keeps (forgets_iff.mpr ⟨w, bounds, shown, deed, forgets⟩)

theorem handleSim {event : SimEvent} (accounted : a.Accounted (event :: batch)) :
    (a.handleSim event).Accounted batch := by
  cases shown : a.window with
  | none =>
      have dropped : a.handleSim event = a := by rw [App.handleSim, shown]
      rw [dropped]
      exact ⟨accounted.closed, fun w still => by simp [shown] at still⟩
  | some w =>
      cases turn_handleSim shown event with
      | hosted still took => exact of_took took (.touch (accounted.shown _ still).next)

theorem pump (accounted : a.Accounted []) : a.pump.2.Accounted [] := by
  have drained : Accounted a.loop.drain.1 { a with loop := a.loop.drain.2 } := by
    refine ⟨fun closed => ?_, fun w shown => (accounted.shown w shown).drain⟩
    obtain ⟨stopped, _, timers⟩ := accounted.closed closed
    exact ⟨stopped, rfl, by simp [EventLoop.drain, timers]⟩
  have all {events : List SimEvent} {a : App} (accounted : a.Accounted events) :
      (events.foldl App.handleSim a).Accounted [] := by
    induction events generalizing a with
    | nil => exact accounted
    | cons event rest ih => exact ih accounted.handleSim
  exact all drained

/-- One step leaves no key stuck if the keypad keeps its button. -/
theorem occur (accounted : a.Accounted []) {o : Occurrence}
    (keeps : ∀ file input, o = .input file input → ¬a.Forgets input) : (a.occur o).Accounted [] := by
  cases o with
  | input file input => exact accounted.handle file (keeps file input rfl)
  | pump => exact accounted.pump
  | paste text =>
      refine ⟨fun closed => accounted.closed (Option.map_eq_none_iff.mp closed), fun w shown => ?_⟩
      obtain ⟨before, open', rfl⟩ := Option.map_eq_some_iff.mp shown
      exact (accounted.shown before open').act (a := .paste text) rfl nofun
  | advance ms =>
      exact ⟨accounted.closed, fun w shown => (accounted.shown w shown).act (a := .advance ms) rfl nofun⟩
  | fit size =>
      change (a.fit size).Accounted []
      unfold App.fit
      split <;> exact accounted.of_same rfl rfl rfl
  | draw | flush => exact accounted.of_same rfl rfl rfl

theorem unstuck (accounted : a.Accounted []) : a.Unstuck :=
  unstuck_iff.mpr fun w shown => (accounted.shown w shown).unstuck

/-- A button that the keypad forgets is stuck. -/
theorem not_unstuck_handle (accounted : a.Accounted []) (file : Option String) {input : Input}
    (forgets : a.Forgets input) : ¬(a.handle file input).Unstuck := by
  obtain ⟨w, bounds, shown, deed, lost⟩ := forgets_iff.mp forgets
  have turn := turn_handle (fun closed => (accounted.closed closed).1) file input
  rw [deed] at turn
  cases turn with
  | hosted still took =>
      cases shown.symm.trans still
      intro unstuck
      have after := unstuck_iff.mp unstuck _ took.window
      rw [took.loop] at after
      exact (Window.unstuck_mouse_iff (accounted.shown w shown).unstuck input bounds).mp after lost

end Accounted

/-- Along a history no key is ever stuck exactly if the keypad never forgets a button. -/
theorem Accounted.unstuck_along_iff (accounted : a.Accounted []) (os : List Occurrence) :
    (∀ xs ys, os = xs ++ ys → (a.occurAll xs).Unstuck) ↔
      ∀ xs file input ys, os = xs ++ .input file input :: ys → ¬(a.occurAll xs).Forgets input := by
  induction os generalizing a with
  | nil => simp [occurAll, accounted.unstuck]
  | cons o rest ih =>
      constructor
      · intro always xs file input ys split
        have keeps : ∀ file input, o = .input file input → ¬a.Forgets input := by
          rintro file input rfl forgets
          exact accounted.not_unstuck_handle file forgets (always [.input file input] rest rfl)
        cases xs with
        | nil => exact keeps file input (List.cons.inj split).1
        | cons first xs =>
            simp only [List.cons_append, List.cons.injEq] at split
            obtain ⟨rfl, rfl⟩ := split
            exact (ih (accounted.occur keeps)).mp (fun xs ys same => always (o :: xs) ys (by simp [same])) xs file input
              ys rfl
      · intro never xs ys split
        have keeps : ∀ file input, o = .input file input → ¬a.Forgets input := by
          rintro file input rfl
          exact never [] file input rest rfl
        cases xs with
        | nil => exact accounted.unstuck
        | cons first xs =>
            simp only [List.cons_append, List.cons.injEq] at split
            obtain ⟨rfl, rfl⟩ := split
            exact (ih (accounted.occur keeps)).mpr
              (fun xs file input ys same => never (o :: xs) file input ys (by simp [same])) xs ys rfl

theorem accounted_opened (size : Nat × Nat) (settings : SimulatorSettings) (editor : Editor) :
    (App.opened size settings editor).Accounted [] :=
  ⟨fun _ => ⟨rfl, rfl, rfl⟩, fun w shown => by cases shown⟩

/-- Whatever happens to an application, every key that is down is going to be lifted all along, by an event on
    the loop or as the button that the mouse holds, exactly if no button of the keypad is ever pressed while
    the keypad remembers another that is down. Where that never happens, no key is down once the keypad
    remembers none and nothing on the loop is to lift one. -/
theorem unstuck_iff_never_forgets (size : Nat × Nat) (settings : SimulatorSettings) (editor : Editor)
    (os : List Occurrence) :
    let after (xs : List Occurrence) := (App.opened size settings editor).occurAll xs
    ((∀ xs ys, os = xs ++ ys → (after xs).Unstuck) ↔
        ∀ xs file input ys, os = xs ++ .input file input :: ys → ¬(after xs).Forgets input) ∧
      ((∀ xs file input ys, os = xs ++ .input file input :: ys → ¬(after xs).Forgets input) →
        ∀ xs ys w, os = xs ++ ys → (after xs).window = some w → w.keypad.held = none →
          (∀ code, ¬(after xs).loop.Pends (.keyRelease code)) → ∀ code, Device.isPressed w.rig code = false) := by
  intro after
  have along := (accounted_opened size settings editor).unstuck_along_iff os
  refine ⟨along, fun never xs ys w split shown free lifted code => Bool.eq_false_iff.mpr fun pressed => ?_⟩
  rcases along.mpr never xs ys split w shown code pressed with pends | held
  · exact lifted code pends
  · simp [free] at held

/-- The program asks for a value as soon as it has the key, so the release of the button goes to the dialog. -/
theorem unstuck_iff_never_forgets_dialog :
    let user (input : Input) : Occurrence := .input none input
    let os : List Occurrence :=
      [user (.function 5), user (.function 5), .pump, .pump, user (.click 28 16), .pump, .pump,
        user (.release 28 16), user (.char '5'), user .enter, .pump, .pump, user (.click 28 30),
        user (.release 28 30)]
    let opened := App.opened (82, 40) { SimulatorSettings.standard with pixelScale := 1 }
      (.ofSource "demo" "inkey\ninput A\ninkey" true)
    let a := opened.occurAll os
    (a.window.map fun w => (w.keypad.held, Device.isPressed w.rig 115)) = some (none, true) ∧
      (∀ code, ¬a.loop.Pends (.keyRelease code)) ∧
      ∃ xs file input ys, os = xs ++ .input file input :: ys ∧ (opened.occurAll xs).Forgets input := by
  intro user os opened a
  have pressed : (a.window.map fun w => (w.keypad.held, Device.isPressed w.rig 115)) = some (none, true) := by
    decide +kernel
  have posted : a.loop.posted.all (fun e => !e.isRelease) = true := by decide +kernel
  have timers : a.loop.timers.all (fun t => !t.event.isRelease) = true := by decide +kernel
  have lifted (code : UInt8) : ¬a.loop.Pends (.keyRelease code) := by
    rintro (queued | ⟨t, armed, lifts⟩)
    · simpa [SimEvent.isRelease] using List.all_eq_true.mp posted _ queued
    · simpa [lifts, SimEvent.isRelease] using List.all_eq_true.mp timers t armed
  refine ⟨pressed, lifted, Classical.byContradiction fun never => ?_⟩
  obtain ⟨w, shown, seen⟩ := Option.map_eq_some_iff.mp pressed
  obtain ⟨free, down⟩ := Prod.mk.inj seen
  have up := (unstuck_iff_never_forgets (82, 40) { SimulatorSettings.standard with pixelScale := 1 }
    (.ofSource "demo" "inkey\ninput A\ninkey" true) os).2
    (fun xs file input ys split forgets => never ⟨xs, file, input, ys, split, forgets⟩) os [] w
    (List.append_nil os).symm shown free lifted 115
  exact Bool.noConfusion (down.symm.trans up)

end PocketBasic.App
