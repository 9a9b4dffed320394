import PocketBasic.Engine
import PocketBasic.Settings
import PocketBasic.Simulator.Event

/-! # Scheduler

Runs a program in batches without ever blocking. One `runStep` event is under way at a time: it
looks at how the last batch ended, runs the next one if the program can go on, and posts itself
again. While the program sleeps or waits nothing is posted, and whatever ends the wait posts the
step.
-/

namespace PocketBasic

/-- How far the answer to a request is. -/
inductive InputState where
  | idle
  /-- The dialog is open. -/
  | prompting
  /-- The answers go into the next batch. -/
  | ready (values : List Answer)
  deriving Repr, DecidableEq

/-- What the scheduler knows about the run. -/
structure Scheduler where
  batchSize : Nat
  minSleep : Nat
  /-- How the last batch ended. -/
  last : Outcome
  running : Bool
  paused : Bool
  /-- The timer of the sleep under way and the number of that sleep. -/
  sleep : Option (TimerId × Nat)
  /-- Number of sleeps so far. -/
  sleepGeneration : Nat
  /-- A `runStep` is posted and not handled yet. -/
  stepPosted : Bool
  inputState : InputState
  /-- Samples the dirty area of the device. -/
  repaint : Ticker
  /-- Blinks the caret while the program waits for the keyboard. -/
  blink : Ticker
  deriving Repr, DecidableEq

/-- What one step did. -/
inductive StepResult where
  /-- Not running, paused, or the dialog is open already. -/
  | idle
  | stepped
  | sleeping
  | waitingForKey
  /-- The dialog has to be opened for this request. -/
  | awaitingInput (request : Request)
  /-- The program has ended and is to be stopped. -/
  | finished
  /-- The program has failed and is to be stopped. -/
  | failed (fault : RunFault)
  deriving Repr, DecidableEq

namespace Scheduler

/-- A scheduler that has run nothing. -/
def ofSettings (s : SimulatorSettings) : Scheduler :=
  { batchSize := s.batchSize, minSleep := s.minSleep, last := .done, running := false,
    paused := false, sleep := none, sleepGeneration := 0, stepPosted := false, inputState := .idle,
    repaint := .ofInterval s.repaintInterval, blink := .ofInterval s.cursorBlink }

/-- A dialog is open. -/
def isPrompting (s : Scheduler) : Bool :=
  match s.inputState with
  | .prompting => true
  | _ => false

/-- Nanoseconds as whole milliseconds, half a millisecond rounding up. -/
def roundToMs (nanoseconds : UInt64) : Nat :=
  (nanoseconds.toNat + 500000) / 1000000

/-- Half a millisecond can be added in 64 bits. -/
def Roundable (nanoseconds : UInt64) : Prop :=
  nanoseconds.toNat + 500000 < UInt64.size

instance (nanoseconds : UInt64) : Decidable (Roundable nanoseconds) :=
  inferInstanceAs (Decidable (_ < _))

end Scheduler

/-- A scheduler with what it acts on: the engine and device, and the event loop. -/
structure Bench (σ : Type) where
  scheduler : Scheduler
  rig : σ
  loop : EventLoop SimEvent

namespace Bench

variable {σ : Type}

/-- Posts the next step unless one is under way. -/
def schedule (b : Bench σ) : Bench σ :=
  if b.scheduler.stepPosted then b
  else { b with scheduler.stepPosted := true, loop := b.loop.post .runStep }

/-- Disarms the timer of a sleep. -/
def cancelSleep (b : Bench σ) : Bench σ :=
  match b.scheduler.sleep with
  | some (id, _) => { b with scheduler.sleep := none, loop := b.loop.kill id }
  | none => b

/-- Starts sampling the dirty area. -/
def startRepaint (b : Bench σ) : Bench σ :=
  let (repaint, loop) := b.scheduler.repaint.start .repaintTick b.loop
  { b with scheduler.repaint := repaint, loop }

/-- Stops sampling the dirty area. -/
def stopRepaint (b : Bench σ) : Bench σ :=
  let (repaint, loop) := b.scheduler.repaint.stop b.loop
  { b with scheduler.repaint := repaint, loop }

/-- Starts blinking the caret. -/
def startBlink (b : Bench σ) : Bench σ :=
  let (blink, loop) := b.scheduler.blink.start .cursorTick b.loop
  { b with scheduler.blink := blink, loop }

/-- Continues a paused program. -/
def cont (b : Bench σ) : Bench σ :=
  if b.scheduler.running && b.scheduler.paused then
    { b with scheduler.paused := false }.schedule
  else b

/-- Pauses a running program. A batch is never interrupted. -/
def pause (b : Bench σ) : Bench σ :=
  if b.scheduler.running then { b with scheduler.paused := true } else b

/-- The sleep of the given number is over. Any other number is stale and means nothing. -/
def wake (b : Bench σ) (generation : Nat) : Bench σ :=
  match b.scheduler.sleep with
  | some (_, armed) =>
      if armed = generation then
        let b := { b with scheduler.sleep := none, scheduler.last := .more }
        if b.scheduler.running && !b.scheduler.paused then b.schedule else b
      else b
  | none => b

section Engine

variable [Engine σ]

/-- Runs a batch and posts the next step. -/
def runBatch (b : Bench σ) (resume : Resume) : Bench σ :=
  let (last, rig) := Engine.exec b.rig resume b.scheduler.batchSize
  { b with scheduler.last := last, rig }.schedule

/-- Gives values back to the engine. -/
def releaseAll (b : Bench σ) (values : List Answer) : Bench σ :=
  { b with rig := values.foldl Engine.release b.rig }

/-- Takes the answers of an accepted dialog. Without an open dialog they go back. -/
def provide (b : Bench σ) (values : List Answer) : Bench σ :=
  if b.scheduler.isPrompting then { b with scheduler.inputState := .ready values }.schedule
  else b.releaseAll values

end Engine

section Device

variable [Device σ]

/-- Stops blinking and takes the caret off the screen. -/
def stopBlink (b : Bench σ) : Bench σ :=
  if b.scheduler.blink.isActive then
    let (blink, loop) := b.scheduler.blink.stop b.loop
    { b with scheduler.blink := blink, loop, rig := Device.hideCaret b.rig }
  else b

/-- Presses a key, which ends the wait of a program for one. -/
def keyDown (b : Bench σ) (key : UInt8) : Bench σ :=
  let b := { b with rig := Device.keyDown b.rig key }
  if b.scheduler.running && !b.scheduler.paused && b.scheduler.last = .key then b.schedule else b

def keyUp (b : Bench σ) (key : UInt8) : Bench σ :=
  { b with rig := Device.keyUp b.rig key }

/-- Takes the area to copy, if anything was written since the last tick. -/
def repaintTick (b : Bench σ) : Option PixelRect × Bench σ :=
  if b.scheduler.repaint.isActive then
    let (area, rig) := Device.takeDirty b.rig
    (area, { b with rig })
  else (none, b)

/-- Blinks the caret; not while the program is paused. -/
def blinkTick (b : Bench σ) : Bench σ :=
  if b.scheduler.blink.isActive && !b.scheduler.paused then
    { b with rig := Device.blink b.rig }
  else b

variable [Engine σ]

/-- Resets engine and device and runs the program from the top. -/
def start (b : Bench σ) : Bench σ :=
  let b := { b with rig := Engine.reset b.rig }.stopBlink
  let b := { b with rig := Device.restart b.rig }.cancelSleep
  let scheduler :=
    { b.scheduler with last := .more, inputState := .idle, running := true, paused := false }
  { b with scheduler }.startRepaint.schedule

/-- Ends the run: disarms the timers, takes answers back and stops the engine, unless the program
    has ended by itself. The engine's complaint, if it has one. -/
def stop (b : Bench σ) : Option String × Bench σ :=
  let b := b.cancelSleep.stopRepaint.stopBlink
  let values := match b.scheduler.inputState with
    | .ready values => values
    | _ => []
  let b := b.releaseAll values
  let scheduler :=
    { b.scheduler with last := .done, inputState := .idle, running := false, paused := false }
  if b.scheduler.last = .done then (none, { b with scheduler })
  else
    let (complaint, rig) := Engine.stop b.rig
    (complaint, { b with scheduler, rig })

/-- Arms the timer of a sleep, unless it is armed. -/
def sleep (b : Bench σ) (nanoseconds : UInt64) : Bench σ :=
  match b.scheduler.sleep with
  | some _ => b
  | none =>
      let generation := b.scheduler.sleepGeneration + 1
      let delay := max (Scheduler.roundToMs nanoseconds) b.scheduler.minSleep
      let (id, loop) := b.loop.singleShot delay (.sleepElapsed generation)
      { b with scheduler.sleep := some (id, generation), scheduler.sleepGeneration := generation,
               loop }

/-- Goes on as the end of the last batch asks for. -/
def proceed (b : Bench σ) : StepResult × Bench σ :=
  match b.scheduler.last with
  | .done => (.finished, b)
  | .more => (.stepped, b.runBatch .nothing)
  | .sleep nanoseconds => (.sleeping, b.sleep nanoseconds)
  | .key =>
      match Device.takeKey b.rig with
      | (none, rig) => (.waitingForKey, { b with rig }.startBlink)
      | (some key, rig) => (.stepped, { b with rig }.stopBlink.runBatch (.key key))
  | .input request =>
      match b.scheduler.inputState with
      | .idle =>
          (.awaitingInput request, { b.startBlink with scheduler.inputState := .prompting })
      | .prompting => (.idle, b)
      | .ready values =>
          (.stepped,
            { b with scheduler.inputState := .idle }.stopBlink.runBatch (.answers values))
  | .failed fault => (.failed fault, { b with scheduler.last := .done })

/-- Handles one `runStep`. -/
def step (b : Bench σ) : StepResult × Bench σ :=
  let b := { b with scheduler.stepPosted := false }
  if b.scheduler.running && !b.scheduler.paused then b.proceed else (.idle, b)

/-- The next step is to arm the timer of a sleep too long to be rounded, which breaks the program off. -/
def oversleeps (b : Bench σ) : Bool :=
  b.scheduler.running && !b.scheduler.paused && b.scheduler.sleep.isNone &&
    match b.scheduler.last with
    | .sleep nanoseconds => decide ¬Scheduler.Roundable nanoseconds
    | _ => false

/-- Handles one `runStep`, unless the program breaks off. Then nothing comes after it. -/
def step? (b : Bench σ) : Option (StepResult × Bench σ) :=
  let (result, later) := b.step
  if b.oversleeps || Engine.brokenOff later.rig then none else some (result, later)

end Device

end Bench

end PocketBasic
