/-! # Lifecycle of a program

A program is stopped, started or paused. Four events move it between these states; an event
that has no edge in the current state is dropped. One dispatch makes at most one transition, and
nothing here raises further events.
-/

namespace PocketBasic

/-- Where a program is in its life. -/
inductive Lifecycle where
  | stopped
  | started
  | paused
  deriving Repr, DecidableEq, Inhabited

namespace Lifecycle

/-- What may happen to a program. -/
inductive Event where
  | start
  | pause
  | cont
  | stop
  deriving Repr, DecidableEq

/-- The state an event leads to, or `none` when it has no edge here. -/
def after? : Lifecycle → Event → Option Lifecycle
  | .stopped, .start => some .started
  | .started, .pause => some .paused
  | .paused, .cont => some .started
  | .started, .stop => some .stopped
  | .paused, .stop => some .stopped
  | _, _ => none

/-- A change of state that happened. -/
structure Transition where
  source : Lifecycle
  target : Lifecycle
  event : Event
  deriving Repr, DecidableEq

/-- Entering `started` drops the run fault shown in the editor. -/
def Transition.clearsMark (t : Transition) : Bool :=
  t.target = .started

/-- Applies an event: the transition it made, if any, and the state after it. -/
def dispatch (state : Lifecycle) (event : Event) : Option Transition × Lifecycle :=
  match state.after? event with
  | some target => (some ⟨state, target, event⟩, target)
  | none => (none, state)

end Lifecycle

/-- What the start button does next. -/
inductive StartAction where
  /-- Read the program and open the simulator window. -/
  | openSimulator
  | run
  | pause
  | continue
  deriving Repr, DecidableEq

namespace StartAction

def label : StartAction → String
  | .openSimulator => "Start simulator"
  | .run => "Run"
  | .pause => "Pause"
  | .continue => "Continue"

end StartAction

/-- Shown instead of variables while they cannot be looked at. -/
def inspectorHint : String := "Pause the program to view and modify variables"

/-- The buttons above the editor. -/
structure Toolbar where
  start : StartAction
  stopEnabled : Bool
  inspectorEditable : Bool
  deriving Repr, DecidableEq

namespace Toolbar

/-- The buttons for a state, with or without a simulator window. -/
def ofState (state : Lifecycle) (hasWindow : Bool) : Toolbar :=
  match state with
  | .stopped =>
      { start := if hasWindow then .run else .openSimulator, stopEnabled := false,
        inspectorEditable := true }
  | .started => { start := .pause, stopEnabled := true, inspectorEditable := false }
  | .paused => { start := .continue, stopEnabled := true, inspectorEditable := true }

/-- The hint to show, if variables cannot be edited. -/
def hint? (t : Toolbar) : Option String :=
  if t.inspectorEditable then none else some inspectorHint

end Toolbar

end PocketBasic
