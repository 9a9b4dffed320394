import PocketBasic.Playback
import PocketBasic.Proofs.Simulator.Host
import PocketBasic.Proofs.Simulator.Ownership
import PocketBasic.Proofs.Simulator.Window

/-! # Windows that are driven by their loop

A window gets its events from the loop alone, a batch at a time, and each batch is handled to its end
before the next is drained. In between come transitions of the lifecycle, what the user does, and the
clock. Whatever the order, the timers on the loop are those whose names the scheduler has kept, and those
that release keys.
-/

namespace PocketBasic

/-- The act comes from the user or the clock and not from the loop. -/
def Window.Act.isOutside : Window.Act → Bool
  | .event _ | .drain => false
  | _ => true

namespace Window

variable {σ : Type} [Device σ] (w : Window σ) (loop : EventLoop SimEvent)

/-! ## What the scheduler sees of its window -/

/-- The keypad presses and lifts keys and does nothing else. -/
@[elab_as_elim]
theorem bench_keypadEvent_cases {motive : Bench σ → Prop} (input : Input) (bounds : CellRect)
    (same : motive (w.bench loop)) (down : ∀ code, motive ((w.bench loop).keyDown code))
    (up : ∀ code, motive ((w.bench loop).keyUp code)) :
    motive ((w.keypadEvent input bounds loop).2.1.bench (w.keypadEvent input bounds loop).2.2) := by
  unfold keypadEvent
  dsimp only
  split
  · split
    · exact down _
    · exact same
  · exact up _
  · exact same

variable [Engine σ]

@[elab_as_elim]
theorem bench_mouseEvent_cases {motive : Bench σ → Prop} (input : Input) (bounds : CellRect)
    (same : motive (w.bench loop)) (down : ∀ code, motive ((w.bench loop).keyDown code))
    (up : ∀ code, motive ((w.bench loop).keyUp code)) :
    motive ((w.mouseEvent input bounds loop).2.1.bench (w.mouseEvent input bounds loop).2.2) := by
  have keypad (other : Window σ) (bench : other.bench loop = w.bench loop) (input : Input) :
      motive ((other.keypadEvent input bounds loop).2.1.bench
        (other.keypadEvent input bounds loop).2.2) := by
    rw [← bench] at same down up
    exact other.bench_keypadEvent_cases loop input bounds same down up
  cases input with
  | click row col =>
      cases inside : (w.layout bounds).panel.contains row col with
      | true =>
          obtain ⟨panel, clicked⟩ := w.exists_clicked row col bounds
          rw [w.mouseEvent_inside loop inside, clicked]
          exact same
      | false =>
          rw [w.mouseEvent_outside loop inside]
          exact keypad w.blurInspector rfl (.click row col)
  | _ => exact keypad w rfl _

/-- All that an act from outside does to the scheduler, to what it runs and to the loop. -/
@[elab_as_elim]
theorem bench_perform_cases {motive : Bench σ → Prop} (a : Act) (outside : a.isOutside = true)
    (edited : ∀ rig, motive { w.bench loop with rig })
    (advanced : ∀ ms, motive { w.bench loop with loop := loop.advance ms })
    (down : ∀ code, motive ((w.bench loop).keyDown code))
    (pressed : ∀ code, motive { (w.bench loop).keyDown code with
      loop := (((w.bench loop).keyDown code).loop.singleShot w.keyRelease (.keyRelease code)).2 })
    (up : ∀ code, motive ((w.bench loop).keyUp code))
    (answered : ∀ rig values, motive (({ w.bench loop with rig } : Bench σ).provide values)) :
    motive ((w.perform loop a).2.1.bench (w.perform loop a).2.2) := by
  have same : motive (w.bench loop) := edited w.rig
  cases a with
  | event | drain => cases outside
  | dialog input bounds =>
      simp only [perform, dialogEvent]
      split
      · exact same
      · split
        · exact edited _
        · exact answered _ _
        · exact edited _
  | mouse input bounds => exact w.bench_mouseEvent_cases loop input bounds same down up
  | press code =>
      simp only [perform, pressKey]
      split
      · exact pressed code
      · exact same
  | inspector => exact edited _
  | paste | toggleInspector | blurInspector => exact same
  | advance ms => exact advanced ms

/-- A stop is the scheduler's, between the closing of the dialog and the copying of the last picture. -/
theorem exists_bench_stopped (source : Lifecycle) (event : Lifecycle.Event) :
    ∃ rig last, (w.transition ⟨source, .stopped, event⟩ loop).1.bench
        (w.transition ⟨source, .stopped, event⟩ loop).2 =
      { ({ w.bench loop with rig } : Bench σ).stop.2 with rig := last } := by
  refine ⟨w.closeDialog.rig, (w.transition ⟨source, .stopped, event⟩ loop).1.rig, ?_⟩
  rw [← bench_closeDialog, bench, scheduler_stopped]
  cases source <;> rfl

/-- All that a transition does to them. -/
@[elab_as_elim]
theorem bench_transition_cases {motive : Bench σ → Prop} (t : Lifecycle.Transition)
    (started : ∀ rig, motive ({ w.bench loop with rig } : Bench σ).start)
    (continued : motive (w.bench loop).cont) (paused : motive (w.bench loop).pause)
    (stopped : ∀ rig last,
      motive { ({ w.bench loop with rig } : Bench σ).stop.2 with rig := last }) :
    motive ((w.transition t loop).1.bench (w.transition t loop).2) := by
  obtain ⟨source, target, event⟩ := t
  cases target with
  | stopped =>
      obtain ⟨rig, last, same⟩ := w.exists_bench_stopped loop source event
      rw [same]
      exact stopped rig last
  | paused => cases source <;> exact paused
  | started =>
      cases source with
      | stopped =>
          have begun := started w.closeDialog.rig
          rw [← bench_closeDialog] at begun
          exact begun
      | started | paused => exact continued

/-! ## Runs -/

/-- What can become of a new window and its loop. `batch` is what has been drained and is not handled
    yet. -/
inductive Driven {σ : Type} [Engine σ] [Device σ] :
    List SimEvent → Window σ → EventLoop SimEvent → Prop where
  | opened (name : String) (rig : σ) (settings : SimulatorSettings) (loop : EventLoop SimEvent)
      (posted : loop.posted = []) (timers : loop.timers = []) :
      Driven [] (.opened name rig settings) loop
  | transition {batch : List SimEvent} {w : Window σ} {loop : EventLoop SimEvent}
      (t : Lifecycle.Transition) :
      Driven batch w loop → Driven batch (w.transition t loop).1 (w.transition t loop).2
  | act {batch : List SimEvent} {w : Window σ} {loop : EventLoop SimEvent} (a : Act)
      (outside : a.isOutside = true) :
      Driven batch w loop → Driven batch (w.perform loop a).2.1 (w.perform loop a).2.2
  | drain {w : Window σ} {loop : EventLoop SimEvent} :
      Driven [] w loop → Driven loop.drain.1 w loop.drain.2
  /-- The next event of the batch; an answer to its notice is a transition like any other. -/
  | next {event : SimEvent} {batch : List SimEvent} {w : Window σ} {loop : EventLoop SimEvent} :
      Driven (event :: batch) w loop →
        Driven batch (w.handle event loop).2.1 (w.handle event loop).2.2

end Window

/-- The timers whose names the scheduler has kept. -/
def Scheduler.timers (s : Scheduler) : List (TimerId × Option Nat × SimEvent) :=
  s.repaint.timers .repaintTick ++ s.blink.timers .cursorTick ++
    s.sleep.toList.map fun (id, generation) => (id, none, .sleepElapsed generation)

/-- No timer is armed but those of the scheduler and those that release a key. -/
theorem Bench.Owned.perm_timers {σ : Type} {b : Bench σ} {batch : List SimEvent}
    (owned : b.Owned batch)
    (armed : ∀ id generation, b.scheduler.sleep = some (id, generation) →
      .sleepElapsed generation ∉ batch) :
    (b.loop.timersOf fun _ => true).Perm
      (b.scheduler.timers ++ b.loop.timersOf SimEvent.isUnkept) := by
  have sleeping : b.loop.timersOf SimEvent.isSleep =
      b.scheduler.sleep.toList.map fun (id, generation) => (id, none, .sleepElapsed generation) := by
    cases asleep : b.scheduler.sleep with
    | none => exact owned.sleeps.awake asleep
    | some timer =>
        obtain ⟨_, _, ⟨alone, _⟩ | ⟨_, fired⟩⟩ := owned.sleeps.asleep timer.1 timer.2 asleep
        · exact alone
        · exact absurd fired (armed timer.1 timer.2 asleep)
  rw [Scheduler.timers, ← sleeping, ← owned.repaints, ← owned.blinks, List.append_assoc,
    List.append_assoc]
  refine (b.loop.perm_timersOf (r := fun e => !decide (e = .repaintTick)) ?_ ?_).trans
    (.append_left _ ((b.loop.perm_timersOf (r := fun e => e.isSleep || e.isUnkept) ?_ ?_).trans
      (.append_left _ (b.loop.perm_timersOf (fun _ => rfl) ?_))))
  all_goals
    intro e
    cases e <;> simp [SimEvent.isSleep, SimEvent.isUnkept]

/-- A stop disarms every timer whose name the scheduler has kept. -/
theorem Bench.timers_stop {σ : Type} [Engine σ] [Device σ] (b : Bench σ) :
    b.stop.2.scheduler.timers = [] := by
  simp [Scheduler.timers, stop_eq, quietened, Ticker.timers_of_inactive]

/-- The timers are as the scheduler has them, and it has them as its flags and its last outcome say. -/
structure Bench.Kept {σ : Type} (batch : List SimEvent) (b : Bench σ) : Prop
    extends b.Owned batch where
  sampled : b.scheduler.Sampled
  coherent : b.scheduler.Coherent

namespace Bench.Kept

variable {σ : Type} [Engine σ] [Device σ] {b : Bench σ} {batch : List SimEvent}

omit [Engine σ] [Device σ] in
theorem withRig (kept : b.Kept batch) (rig : σ) : ({ b with rig } : Bench σ).Kept batch :=
  ⟨kept.toOwned.withRig rig, kept.sampled, kept.coherent⟩

theorem start (kept : b.Kept batch) : b.start.Kept batch :=
  ⟨kept.toOwned.start, .start b, .start b⟩

theorem stop (kept : b.Kept batch) : b.stop.2.Kept batch :=
  ⟨kept.toOwned.stop, .stop b, .stop b⟩

theorem perform {w : Window σ} {loop : EventLoop SimEvent} (kept : (w.bench loop).Kept batch)
    (a : Window.Act) (outside : a.isOutside = true) :
    ((w.perform loop a).2.1.bench (w.perform loop a).2.2).Kept batch := by
  have down (code : UInt8) : ((w.bench loop).keyDown code).Kept batch :=
    ⟨kept.toOwned.keyDown code, kept.sampled.keyDown code, kept.coherent.keyDown code⟩
  refine w.bench_perform_cases loop a outside ?edited ?advanced ?down ?pressed ?up ?answered
  case edited => exact kept.withRig
  case advanced => exact fun ms => ⟨kept.toOwned.advance ms, kept.sampled, kept.coherent⟩
  case down => exact down
  case pressed =>
    exact fun code => ⟨(down code).toOwned.releaseLater _ code, (down code).sampled,
      (down code).coherent⟩
  case up => exact fun code => kept.withRig _
  case answered =>
    intro rig values
    have edited := kept.withRig rig
    exact ⟨edited.toOwned.provide values, edited.sampled.provide values,
      edited.coherent.provide values⟩

theorem transition {w : Window σ} {loop : EventLoop SimEvent} (kept : (w.bench loop).Kept batch)
    (t : Lifecycle.Transition) :
    ((w.transition t loop).1.bench (w.transition t loop).2).Kept batch := by
  refine w.bench_transition_cases loop t ?started ?continued ?paused ?stopped
  case started => exact fun rig => (kept.withRig rig).start
  case continued => exact ⟨kept.toOwned.cont, kept.sampled.cont, kept.coherent.cont⟩
  case paused => exact ⟨kept.toOwned.pause, kept.sampled.pause, kept.coherent.pause⟩
  case stopped => exact fun rig last => (kept.withRig rig).stop.withRig last

theorem handle {event : SimEvent} (kept : b.Kept (event :: batch)) : (b.handle event).Kept batch :=
  ⟨kept.toOwned.handle, kept.sampled.handle event, kept.coherent.handle event⟩

end Bench.Kept

namespace Window

variable {σ : Type} [Engine σ] [Device σ] {w : Window σ} {loop : EventLoop SimEvent}
  {batch : List SimEvent}

theorem Driven.kept (driven : Driven batch w loop) : (w.bench loop).Kept batch := by
  induction driven with
  | opened name rig settings loop posted timers =>
      exact ⟨.fresh settings rig posted timers, .fresh settings, .of_idle rfl rfl⟩
  | transition t _ ih => exact ih.transition t
  | act a outside _ ih => exact ih.perform a outside
  | drain _ ih => exact ⟨ih.toOwned.drain, ih.sampled, ih.coherent⟩
  | next _ ih =>
      rw [bench_handle]
      exact ih.handle

/-- Between batches the loop has the timers that the scheduler has names for and key releases: a
    periodic one for the repainting while the program runs, one for a caret that blinks, and one that
    ends the sleep under way. After a stop it has nothing but key releases, even in the middle of a
    batch. -/
theorem timers_owned (driven : Driven batch w loop) :
    (batch = [] →
      w.scheduler.repaint.isActive = w.scheduler.running ∧
      (∀ timer, w.scheduler.sleep = some timer →
        ∃ nanoseconds, w.scheduler.last = .sleep nanoseconds) ∧
      ∃ releases, (∀ tag ∈ releases, ∃ code, tag.2 = (none, .keyRelease code)) ∧
        (loop.timersOf fun _ => true).Perm (w.scheduler.timers ++ releases)) ∧
    ∀ source event,
      let stopped := w.transition ⟨source, .stopped, event⟩ loop
      stopped.1.scheduler.timers = [] ∧
        ∀ tag ∈ stopped.2.timersOf fun _ => true, ∃ code, tag.2 = (none, .keyRelease code) := by
  have kept := driven.kept
  constructor
  case left =>
    rintro rfl
    exact ⟨kept.sampled, kept.coherent.asleep, _, kept.releases,
      kept.perm_timers fun _ _ _ => List.not_mem_nil⟩
  case right =>
    intro source event stopped
    obtain ⟨rig, last, same⟩ := w.exists_bench_stopped loop source event
    have scheduler : stopped.1.scheduler = ({ w.bench loop with rig } : Bench σ).stop.2.scheduler :=
      congrArg Bench.scheduler same
    have owned : (stopped.1.bench stopped.2).Owned batch :=
      (kept.transition ⟨source, .stopped, event⟩).toOwned
    have idle : stopped.1.scheduler.timers = [] := by rw [scheduler, Bench.timers_stop]
    have awake : stopped.1.scheduler.sleep = none := by
      obtain ⟨_, _, quiet⟩ := ({ w.bench loop with rig } : Bench σ).exists_scheduler_stop
      rw [scheduler, quiet]
    have left := owned.perm_timers fun id generation asleep => by
      cases awake.symm.trans asleep
    rw [show (stopped.1.bench stopped.2).scheduler.timers = [] from idle, List.nil_append] at left
    exact ⟨idle, fun tag member => owned.releases tag (left.mem_iff.mp member)⟩

/-- A program that sleeps. The timer of its sleep and the tick are both due when it is stopped, so their
    events are in the batch; the key that is down is still to be released. -/
theorem timers_owned_asleep :
    let rig : Playback := ⟨.ofResults [.sleep 3000000], .ofLit []⟩
    let begun := (opened "nap" rig .standard).transition ⟨.stopped, .started, .start⟩ .empty
    let ran := begun.1.handle .runStep begun.2.drain.2
    let asleep := ran.2.1.handle .runStep ran.2.2.drain.2
    let pressed := asleep.2.1.pressKey 65 asleep.2.2
    let later := (pressed.2.advance 60).drain
    let stopped := pressed.1.transition ⟨.started, .stopped, .stop⟩ later.2
    (∃ releases, (∀ tag ∈ releases, ∃ code, tag.2 = (none, .keyRelease code)) ∧
        (pressed.2.timersOf fun _ => true).Perm (pressed.1.scheduler.timers ++ releases)) ∧
      pressed.1.scheduler.timers = [(1, some 17, .repaintTick), (2, none, .sleepElapsed 1)] ∧
      .sleepElapsed 1 ∈ later.1 ∧ stopped.1.scheduler.timers = [] ∧
      (stopped.2.timersOf fun _ => true) = [(3, none, .keyRelease 65)] := by
  intro rig begun ran asleep pressed later stopped
  have began : Driven [] begun.1 begun.2 :=
    (Driven.opened "nap" rig .standard .empty rfl rfl).transition _
  have first : begun.2.drain.1 = [.runStep] := by decide +kernel
  have running : Driven [] ran.2.1 ran.2.2 := by
    have drained := began.drain
    rw [first] at drained
    exact drained.next
  have second : ran.2.2.drain.1 = [.runStep] := by decide +kernel
  have sleeping : Driven [] asleep.2.1 asleep.2.2 := by
    have drained := running.drain
    rw [second] at drained
    exact drained.next
  have down : Driven [] pressed.1 pressed.2 := sleeping.act (.press 65) rfl
  have due : Driven later.1 pressed.1 later.2 := (down.act (.advance 60) rfl).drain
  have expired : .sleepElapsed 1 ∈ later.1 :=
    (pressed.2.advance 60).mem_drain.mpr
      (.inl ⟨⟨2, 3, none, .sleepElapsed 1⟩, by decide +kernel, by decide +kernel, rfl⟩)
  have quiet : stopped.1.scheduler.timers = [] := by
    dsimp only [stopped]
    exact ((timers_owned due).2 .started .stop).1
  obtain ⟨_, _, owned⟩ := (timers_owned down).1 rfl
  exact ⟨owned, by decide +kernel, expired, quiet, by decide +kernel⟩

end Window

end PocketBasic
