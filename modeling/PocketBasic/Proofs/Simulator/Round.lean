import PocketBasic.Proofs.Simulator.Operations

/-! # Rounds

A host drains the loop, handles the events it was given one after the other, and in between does what
its user asks for. A round is a bench together with the events that are drained and not handled yet;
moves are what can happen to it while a program runs, acts add its start and its end. Moves come in any
order: nothing ties a pause, a key or an answer to the end of a batch.
-/

namespace PocketBasic

/-- Handles one event of the loop. -/
def Bench.handle {σ : Type} [Engine σ] [Device σ] (b : Bench σ) : SimEvent → Bench σ
  | .runStep => b.step.2
  | .sleepElapsed generation => b.wake generation
  | .repaintTick => b.repaintTick.2
  | .cursorTick => b.blinkTick
  | .keyRelease code => b.keyUp code

/-- What can happen while a program runs. -/
inductive Move where
  | pause
  | cont
  /-- A key goes down. -/
  | press (key : UInt8)
  /-- A key goes up. -/
  | lift (key : UInt8)
  /-- A key is to go up by itself after a delay. -/
  | liftLater (delay : Nat) (key : UInt8)
  /-- Someone answers, whether or not a dialog is open. -/
  | provide (values : List Answer)
  | advance (ms : Nat)
  /-- Take what is ready off the loop. -/
  | drain
  /-- Handle the first event that was drained. -/
  | next
  /-- Handle an event that the loop never delivered. -/
  | stray (event : SimEvent)
  deriving Repr, DecidableEq

/-- What can happen to a scheduler. -/
inductive Act where
  | start
  | stop
  | move (m : Move)
  deriving Repr, DecidableEq

/-- A bench and the events that are drained and not handled yet, the next one in front. -/
structure Round (σ : Type) where
  bench : Bench σ
  batch : List SimEvent

namespace Round

variable {σ : Type}

/-- A scheduler that has run nothing, on an empty loop. -/
def fresh (settings : SimulatorSettings) (rig : σ) : Round σ :=
  ⟨⟨.ofSettings settings, rig, .empty⟩, []⟩

variable [Engine σ] [Device σ]

def move (r : Round σ) : Move → Round σ
  | .pause => { r with bench := r.bench.pause }
  | .cont => { r with bench := r.bench.cont }
  | .press key => { r with bench := r.bench.keyDown key }
  | .lift key => { r with bench := r.bench.keyUp key }
  | .liftLater delay key =>
      { r with bench.loop := (r.bench.loop.singleShot delay (.keyRelease key)).2 }
  | .provide values => { r with bench := r.bench.provide values }
  | .advance ms => { r with bench.loop := r.bench.loop.advance ms }
  | .drain =>
      let (events, loop) := r.bench.loop.drain
      ⟨{ r.bench with loop }, r.batch ++ events⟩
  | .next =>
      match r.batch with
      | [] => r
      | event :: rest => ⟨r.bench.handle event, rest⟩
  | .stray event => { r with bench := r.bench.handle event }

def act (r : Round σ) : Act → Round σ
  | .start => { r with bench := r.bench.start }
  | .stop => { r with bench := r.bench.stop.2 }
  | .move m => r.move m

/-- The next event is handled, if there is one. -/
@[elab_as_elim]
theorem bench_next_cases {motive : Bench σ → Prop} (r : Round σ) (idle : motive r.bench)
    (handled : ∀ event, motive (r.bench.handle event)) : motive (r.move .next).bench := by
  obtain ⟨b, batch⟩ := r
  cases batch with
  | nil => exact idle
  | cons event rest => exact handled event

/-- Makes moves one after the other. -/
def moves (r : Round σ) (ms : List Move) : Round σ := ms.foldl move r

/-- Acts one after the other. -/
def acts (r : Round σ) (as : List Act) : Round σ := as.foldl act r

/-- Drains the loop and handles everything that was ready. -/
def pump (r : Round σ) : Round σ :=
  let (events, loop) := r.bench.loop.drain
  ⟨(r.batch ++ events).foldl Bench.handle { r.bench with loop }, []⟩

/-- Handling a batch event by event handles the batch. -/
theorem moves_next (b : Bench σ) (batch : List SimEvent) :
    (⟨b, batch⟩ : Round σ).moves (List.replicate batch.length .next) =
      ⟨batch.foldl Bench.handle b, []⟩ := by
  induction batch generalizing b with
  | nil => rfl
  | cons event rest ih => exact ih (b.handle event)

/-- A pump is a drain and as many moves as there are events, so what holds after every list of moves
    holds of hosts that only pump. -/
theorem pump_eq_moves (r : Round σ) :
    r.pump =
      r.moves (.drain :: List.replicate (r.batch ++ r.bench.loop.drain.1).length .next) :=
  (moves_next _ _).symm

end Round

end PocketBasic
