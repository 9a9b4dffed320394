import PocketBasic.Engine.Request

/-! # Messages about a function body -/

namespace PocketBasic

inductive Severity where
  | warning
  | error
  deriving Repr, DecidableEq

/-- A message about a piece of a function body. -/
structure Diagnostic where
  start : Nat
  stop : Nat
  severity : Severity
  message : String
  deriving Repr, DecidableEq

/-- A compiled body and the messages about it. There is a body also when there are errors, and the
    engine must get it back. -/
structure Compilation where
  body : FnBody
  diagnostics : List Diagnostic
  deriving Repr, DecidableEq

namespace Compilation

/-- The leftmost of two messages, the first of them when they start together. -/
def leftmost (a : Option Diagnostic) (b : Diagnostic) : Option Diagnostic :=
  match a with
  | none => some b
  | some a => if b.start < a.start then some b else some a

/-- The error that starts leftmost, the first of several that start there. -/
def firstError (c : Compilation) : Option Diagnostic :=
  (c.diagnostics.filter fun d => d.severity = .error).foldl leftmost none

end Compilation

end PocketBasic
