import PocketBasic.Launch
import PocketBasic.Proofs.App.Live

/-! # The states of the application

What keys, mouse events, pasted texts, the clock and the events of the loop can make of an application
that was opened, in any order. The program itself gets to no others, and all of them are live. So no wake-up is
lost, also if a pause falls between the end of a sleep, a key or an answer and the step that looks at it.
-/

namespace PocketBasic.App

/-- The states of the application between two events. A pump handles all of what it drains. -/
inductive Reachable : App → Prop where
  | opened (size : Nat × Nat) (settings : SimulatorSettings) (editor : Editor) :
      Reachable (.opened size settings editor)
  /-- A key or a mouse event; `file` is what the program's file holds by then. -/
  | handle {a : App} (file : Option String) (input : Input) :
      Reachable a → Reachable (a.handle file input)
  | paste {a : App} (text : List Char) :
      Reachable a → Reachable { a with window := a.window.map (·.paste text) }
  | advance {a : App} (ms : Nat) : Reachable a → Reachable { a with loop := a.loop.advance ms }
  | pump {a : App} : Reachable a → Reachable a.pump.2
  | fit {a : App} (size : Nat × Nat) : Reachable a → Reachable (a.fit size)
  | draw {a : App} : Reachable a → Reachable a.draw
  | flush {a : App} : Reachable a → Reachable a.flush.2

variable {a : App}

/-! ## What the program does -/

theorem Reachable.handleKeys (reachable : Reachable a) (file : Option String) (keys : List Key) :
    Reachable (a.handleKeys file keys) := by
  unfold App.handleKeys
  induction keys generalizing a with
  | nil => exact reachable
  | cons key rest ih =>
      rw [List.foldl_cons]
      split
      · exact ih reachable
      · exact ih (reachable.handle file _)

theorem eq_handleSim_of_handleSim? {event : SimEvent} {later : App}
    (handled : a.handleSim? event = some later) : later = a.handleSim event := by
  unfold handleSim? at handled
  dsimp only at handled
  split at handled
  · cases handled
  · exact (Option.some.inj handled).symm

theorem eq_foldl_of_foldlM {events : List SimEvent} {later : App}
    (handled : events.foldlM handleSim? a = some later) : later = events.foldl handleSim a := by
  induction events generalizing a with
  | nil => exact (Option.some.inj handled).symm
  | cons event rest ih =>
      obtain ⟨next, first, others⟩ := Option.bind_eq_some_iff.mp handled
      rw [List.foldl_cons, ← eq_handleSim_of_handleSim? first]
      exact ih others

/-- What is not broken off is handled as if nothing could be. -/
theorem eq_pump_of_pump? {pumped : List SimEvent × App} (handled : a.pump? = some pumped) : pumped = a.pump := by
  obtain ⟨later, folded, rfl⟩ := Option.map_eq_some_iff.mp handled
  exact congrArg (Prod.mk _) (eq_foldl_of_foldlM folded)

/-- A round of the main loop is made of these events, unless it is broken off. -/
theorem Reachable.frame? (reachable : Reachable a) {size : Nat × Nat} {file : Option String}
    {packets : List (List UInt8)} {played : List TerminalOp × App}
    (goes : a.frame? size file packets = some played) : Reachable played.2 := by
  obtain ⟨⟨events, later⟩, pumped, rfl⟩ := Option.map_eq_some_iff.mp goes
  have same : later = ((a.fit size).handleKeys file (Terminal.keys packets)).pump.2 :=
    congrArg Prod.snd (eq_pump_of_pump? pumped)
  rw [same]
  exact (((reachable.fit size).handleKeys file _).pump.draw).flush

theorem Reachable.startPause (reachable : Reachable a) : Reachable a.startPause :=
  reachable.handle none (.function 5)

/-- So is what the command line asks for. -/
theorem Reachable.launched {s : Surroundings} {o : Options} {size : Nat × Nat}
    (launched : Launch.app s o size = .ok a) : Reachable a := by
  have autostart {a : App} (reachable : Reachable a) : Reachable a.autostart := by
    unfold App.autostart
    dsimp only
    split
    · exact reachable.startPause.startPause
    · exact reachable.startPause
  simp only [Launch.app, bind, Except.bind] at launched
  split at launched
  · cases launched
  · split at launched
    · cases launched
    · split at launched
      · cases launched
      · split at launched
        · cases launched
          split
          · exact autostart (.opened _ _ _)
          · exact .opened _ _ _
        · cases launched

/-! ## What holds of every state -/

theorem Live.advance (live : a.Live []) (ms : Nat) :
    Live [] { a with loop := a.loop.advance ms } := by
  refine ⟨live.closed, fun w shown => ?_⟩
  have opened := live.opened w shown
  exact ⟨opened.bench.advance ms, opened.dialog, opened.shown⟩

theorem Reachable.live (reachable : Reachable a) : a.Live [] := by
  induction reachable with
  | opened size settings editor => exact ⟨fun _ => ⟨rfl, rfl, rfl⟩, fun w shown => by cases shown⟩
  | handle file input _ ih => exact ih.handle file input
  | paste text _ ih => exact ih.mapWindow fun _ opened => opened.paste text
  | advance ms _ ih => exact ih.advance ms
  | pump _ ih => exact ih.pump
  | fit size _ ih =>
      unfold App.fit
      split
      · exact ih
      · exact ih.of_same rfl rfl rfl
  | draw _ ih => exact ih.of_same rfl rfl rfl
  | flush _ ih => exact ih.of_same rfl rfl rfl

/-! ## No wake-up is lost

Whatever comes in whatever order, a program that is started can go on: a step is on the loop, or the program
waits for something that will post one.
-/

/-- A step is on the loop; or the program sleeps, and the timer that ends this sleep is armed; or it waits
    for a key, none is buffered and the caret blinks; or it waits for values, and the dialog is open. -/
def GoesOn (w : Window Computer) (loop : EventLoop SimEvent) : Prop :=
  .runStep ∈ loop.posted ∨
    (∃ nanoseconds id generation, w.scheduler.last = .sleep nanoseconds ∧
      w.scheduler.sleep = some (id, generation) ∧
      ∃ timer ∈ loop.timers, timer.id = id ∧ timer.event = .sleepElapsed generation) ∨
    (w.scheduler.last = .key ∧ w.rig.handset.buffer = [] ∧ w.scheduler.blink.isActive = true) ∨
    ∃ request, w.scheduler.last = .input request ∧ w.dialog.isSome = true

/-- Whatever has happened before: a program that is started can go on. -/
theorem started_goes_on (reachable : Reachable a) (started : a.lifecycle = .started) :
    ∃ w, a.window = some w ∧ GoesOn w a.loop := by
  have live := reachable.live
  cases shown : a.window with
  | none =>
      have stopped := (live.closed shown).1
      rw [started] at stopped
      cases stopped
  | some w =>
      have opened := live.opened w shown
      rw [started] at opened
      refine ⟨w, rfl, ?_⟩
      cases opened.bench.goesOn with
      | inl posted => exact .inl posted
      | inr waits =>
          refine .inr ?_
          cases waits with
          | sleep nanoseconds timer last asleep =>
              obtain ⟨id, generation⟩ := timer
              cases opened.bench.armed.asleep id generation asleep with
              | inl alive => exact .inl ⟨nanoseconds, id, generation, last, asleep, alive⟩
              | inr drained => cases drained
          | key last empty blinking => exact .inr (.inl ⟨last, empty, blinking⟩)
          | input request last prompting =>
              refine .inr (.inr ⟨request, last, opened.dialog.trans ?_⟩)
              have state : w.scheduler.inputState = .prompting := prompting
              rw [Scheduler.isPrompting, state]

/-- A program that was opened and started from the keyboard. -/
theorem started_goes_on_from_keyboard :
    let a := ((App.opened (80, 60) .standard (.ofSource "inkey" "inkey" true)).handle none
      (.function 5)).handle none (.function 5)
    Reachable a ∧ a.lifecycle = .started ∧ ∃ w, a.window = some w ∧ GoesOn w a.loop := by
  intro a
  have reachable : Reachable a := .handle none _ (.handle none _ (.opened _ _ _))
  have started : a.lifecycle = .started := rfl
  exact ⟨reachable, started, started_goes_on reachable started⟩

end PocketBasic.App
