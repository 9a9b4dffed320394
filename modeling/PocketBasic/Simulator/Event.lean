import PocketBasic.EventLoop

/-! # Events of the simulator -/

namespace PocketBasic

/-- What the simulator schedules on the event loop. -/
inductive SimEvent where
  /-- Run a batch, if the program can go on. -/
  | runStep
  /-- The sleep of the given number is over. -/
  | sleepElapsed (generation : Nat)
  | repaintTick
  | cursorTick
  /-- Release a key that was pressed on the host's keyboard, which reports no releases. -/
  | keyRelease (code : UInt8)
  deriving Repr, DecidableEq

/-- A periodic timer that may be armed. -/
structure Ticker where
  interval : Nat
  timer : Option TimerId
  deriving Repr, DecidableEq

namespace Ticker

/-- A timer that is not armed. -/
def ofInterval (interval : Nat) : Ticker := ⟨interval, none⟩

def isActive (t : Ticker) : Bool := t.timer.isSome

/-- Arms the timer unless it is armed. -/
def start (t : Ticker) (event : SimEvent) (loop : EventLoop SimEvent) :
    Ticker × EventLoop SimEvent :=
  match t.timer with
  | some _ => (t, loop)
  | none =>
      let (id, loop) := loop.startTimer t.interval event
      ({ t with timer := some id }, loop)

/-- Disarms the timer. -/
def stop (t : Ticker) (loop : EventLoop SimEvent) : Ticker × EventLoop SimEvent :=
  match t.timer with
  | some id => ({ t with timer := none }, loop.kill id)
  | none => (t, loop)

end Ticker

end PocketBasic
