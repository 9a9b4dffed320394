/-! # Event loop

A queue of posted events and a set of timers over a clock that is moved from outside. Draining
collects the events of the timers that are due, in the order of their deadlines, and then the posted
ones. An event posted while these are handled waits for the next drain, so a handler that posts
itself again cannot keep timers from firing.

All times are whole milliseconds.
-/

namespace PocketBasic

/-- Names a timer of one event loop. Numbers grow in the order of creation. -/
abbrev TimerId := Nat

/-- An armed timer. -/
structure Timer (ε : Type) where
  id : TimerId
  /-- Time at which the timer is due. -/
  deadline : Nat
  /-- Time between deliveries, or `none` for a timer that fires once. -/
  interval : Option Nat
  event : ε
  deriving Repr, DecidableEq

/-- The clock, the posted events and the timers in the order of their creation. -/
structure EventLoop (ε : Type) where
  now : Nat
  posted : List ε
  timers : List (Timer ε)
  nextId : TimerId
  deriving Repr, DecidableEq

namespace Timer

variable {ε : Type}

/-- The timer is due at the given time. -/
def isDue (now : Nat) (t : Timer ε) : Bool :=
  decide (t.deadline ≤ now)

/-- The order of delivery: by deadline, then by creation. -/
def before (a b : Timer ε) : Bool :=
  decide (a.deadline < b.deadline) || (decide (a.deadline = b.deadline) && decide (a.id ≤ b.id))

/-- What a timer that has fired at a given time turns into. A periodic timer keeps to its grid of
    deadlines unless it has missed the next one too, and then starts a new grid. -/
def rearm (now : Nat) (t : Timer ε) : Option (Timer ε) :=
  t.interval.map fun interval =>
    let next := t.deadline + interval
    { t with deadline := if next ≤ now then now + interval else next }

end Timer

namespace EventLoop

variable {ε : Type}

/-- Nothing posted, no timers, the clock at zero. -/
def empty : EventLoop ε := ⟨0, [], [], 1⟩

/-- Moves the clock on. -/
def advance (l : EventLoop ε) (ms : Nat) : EventLoop ε :=
  { l with now := l.now + ms }

/-- Queues an event for the next drain. -/
def post (l : EventLoop ε) (event : ε) : EventLoop ε :=
  { l with posted := l.posted ++ [event] }

/-- Arms a timer and names it. -/
def addTimer (l : EventLoop ε) (delay : Nat) (interval : Option Nat) (event : ε) :
    TimerId × EventLoop ε :=
  (l.nextId,
    { l with
      timers := l.timers ++ [⟨l.nextId, l.now + delay, interval, event⟩]
      nextId := l.nextId + 1 })

/-- Delivers an event once, after a delay. -/
def singleShot (l : EventLoop ε) (delay : Nat) (event : ε) : TimerId × EventLoop ε :=
  l.addTimer delay none event

/-- Delivers an event again and again. -/
def startTimer (l : EventLoop ε) (interval : Nat) (event : ε) : TimerId × EventLoop ε :=
  l.addTimer interval (some interval) event

/-- The timer is armed. -/
def isActive (l : EventLoop ε) (id : TimerId) : Bool :=
  l.timers.any fun t => t.id = id

/-- Disarms a timer. -/
def kill (l : EventLoop ε) (id : TimerId) : EventLoop ε :=
  { l with timers := l.timers.filter fun t => t.id ≠ id }

/-- Number of posted events and timers. -/
def pending (l : EventLoop ε) : Nat :=
  l.posted.length + l.timers.length

/-- Drops every posted event and every timer. -/
def clear (l : EventLoop ε) : EventLoop ε :=
  { l with posted := [], timers := [] }

/-- The timers that are due, in the order of delivery. -/
def due (l : EventLoop ε) : List (Timer ε) :=
  (l.timers.filter (·.isDue l.now)).mergeSort Timer.before

/-- The events that are ready, and the loop after their delivery. -/
def drain (l : EventLoop ε) : List ε × EventLoop ε :=
  (l.due.map (·.event) ++ l.posted,
    { l with
      posted := []
      timers := l.timers.filterMap fun t => if t.isDue l.now then t.rearm l.now else some t })

/-- Time until something is ready: none for a posted event, else until the earliest timer is due.
    `none` when nothing ever will be. -/
def untilNext (l : EventLoop ε) : Option Nat :=
  if l.posted.isEmpty then (l.timers.map fun t => t.deadline - l.now).min?
  else some 0

end EventLoop

end PocketBasic
