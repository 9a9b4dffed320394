import PocketBasic.App
import PocketBasic.Terminal.Grid

/-! # Rehearsal

The application played against a terminal grid and a typist. The typist types a batch of packets at
once, the first before the first round and every other one after the terminal has shown the text
it waits for. The application is the faster of the two: by the time the typist answers it has done
everything it had to do at once, unless that goes on and on. Between rounds the clock moves on by the
time the application would wait, and by a millisecond at least.
-/

namespace PocketBasic

/-- What the typist does. -/
inductive Typing where
  | type (packet : List UInt8)
  /-- Wait until some row of the terminal shows the text. -/
  | await (text : List Char)
  /-- Wait until the application has nothing to do at once, so many rounds at most. -/
  | rest (rounds : Nat)
  deriving Repr, DecidableEq

namespace Typing

/-- The packets before the next wait, and the rest. -/
def batch : List Typing → List (List UInt8) × List Typing
  | .type packet :: plan =>
      let (packets, plan) := batch plan
      (packet :: packets, plan)
  | plan => ([], plan)

/-- Rounds that a typist takes to answer a busy application. -/
def reaction : Nat := 200

/-- What is typed now, given what the terminal shows and whether the application has something to
    do at once. -/
def next (shows : List Char → Bool) (busy : Bool) : List Typing → List (List UInt8) × List Typing
  | .await text :: plan => ([], if shows text then .rest reaction :: plan else .await text :: plan)
  | .rest 0 :: plan => batch plan
  | .rest (rounds + 1) :: plan => if busy then ([], .rest rounds :: plan) else batch plan
  | plan => batch plan

end Typing

namespace Rehearsal

/-- Plays rounds until the application quits, `rounds` of them at most, and returns what the
    terminal shows then; `none` when the application is broken off. -/
def play? (size : Nat × Nat) (file : Option String) (a : App) (g : Grid) (plan : List Typing) :
    Nat → Option Grid
  | 0 => some g
  | rounds + 1 =>
      let (packets, plan) := Typing.next g.shows (!a.loop.posted.isEmpty) plan
      match a.frame? size file packets with
      | none => none
      | some (ops, a) =>
          let g := g.applyAll ops
          if a.quit then some g
          else play? size file { a with loop := a.loop.advance (max a.waitTime 1) } g plan rounds

end Rehearsal

end PocketBasic
