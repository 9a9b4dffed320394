import PocketBasic.Engine.Request

/-! # Batches of a run

A program runs in batches. A batch is resumed with what its program waits for, and its outcome says
why the batch ended.
-/

namespace PocketBasic

/-- A piece of one source line. Columns are byte offsets, `stop` is exclusive. -/
structure Span where
  line : Nat
  start : Nat
  stop : Nat
  deriving Repr, DecidableEq, Inhabited

/-- A fault that ended a run. -/
structure RunFault where
  span : Span
  message : String
  deriving Repr, DecidableEq

namespace RunFault

/-- The fault as one line of text; lines count from one. -/
def text (f : RunFault) : String :=
  "line " ++ toString (f.span.line + 1) ++ ": " ++ f.message

end RunFault

/-- Why a batch ended. -/
inductive Outcome where
  /-- Its budget is used up. -/
  | more
  /-- The program sleeps for so many nanoseconds. -/
  | sleep (nanoseconds : UInt64)
  /-- The program waits for a key. -/
  | key
  /-- The program waits for values. -/
  | input (request : Request)
  /-- The program failed. -/
  | failed (fault : RunFault)
  /-- The program has ended. -/
  | done
  deriving Repr, DecidableEq

/-- What a batch is resumed with. -/
inductive Resume where
  | nothing
  | key (code : UInt8)
  | answers (values : List Answer)
  deriving Repr, DecidableEq

end PocketBasic
