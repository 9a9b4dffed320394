import PocketBasic.Engine
import PocketBasic.Handset
import PocketBasic.Program.Instruction

/-! # Running a program

A program runs in ticks. Every instruction takes one tick after it has had its effect; `work` takes as
many as it says, a loop one more before each pass, and the end of the program none. A batch is a
number of ticks, so a batch never runs for long whatever the program does.

What is left to do is a stack of jobs, the next one on top. One step takes the top job
to the next tick or to the next point where the program waits for the world, and
recurses only into a smaller stack.
-/

namespace PocketBasic

/-- What a program can change. -/
structure World where
  handset : Handset
  store : Store
  /-- The file the program has opened and not closed. -/
  openFile : Option String
  /-- The last key an `inkey` has read. -/
  lastKey : Option UInt8
  /-- Number of values that `input` instructions have received. -/
  received : Nat
  /-- The program was broken off at an array with more elements than can be counted. The run goes on without
      the array, but nobody sees it do so. -/
  brokenOff : Bool

/-- A piece of work that is left. -/
inductive Job where
  /-- Run the instructions. -/
  | block (rest : List Instruction)
  /-- Run the body so many times more. -/
  | passes (left : Nat) (body : List Instruction)
  /-- Let so many ticks pass. -/
  | ticks (left : Nat)
  /-- Wait for a key. -/
  | awaitKey
  /-- Wait for the answers to a request. -/
  | awaitAnswers (origin : Origin) (request : Request) (targets : List (Option String))
  deriving Repr

/-- How a step ends. -/
inductive Step where
  /-- A tick has passed; these jobs are left. -/
  | tick (jobs : List Job)
  /-- The program waits; these jobs are left. -/
  | wait (outcome : Outcome) (jobs : List Job)
  /-- The program has failed. -/
  | fail (fault : RunFault)
  /-- The program has ended. -/
  | done
  deriving Repr

namespace World

/-- The world before a run, on a given handset. -/
def fresh (handset : Handset) : World :=
  { handset, store := .empty, openFile := none, lastKey := none, received := 0, brokenOff := false }

/-- The value of an operand. A variable that was never assigned counts as zero, and so does a
    negative one. Strings are not numbers. -/
def operandValue (w : World) : Operand → Except String Nat
  | .literal n => .ok n
  | .variable name =>
      match w.store.get? name with
      | none => .ok 0
      | some (.integer n) => .ok n.toInt.toNat
      | some (.real x) => .ok (x.clampToNat 4294967295)
      | some (.string _) => .error (BindingError.typeMismatch name).message

/-- The value that an answer stores; a function body stores none. -/
def answerValue? : Answer → Option Value
  | .integer n => some (.integer n)
  | .real x => some (.real x)
  | .string s => some (.string s)
  | .func _ => none

/-- Assigns answers to the variables of their fields, one after the other. Those before a
    mismatch stay assigned. -/
def storeAnswers (store : Store) : List Answer → List (Option String) → Option BindingError × Store
  | answer :: answers, target :: targets =>
      match answerValue? answer, target with
      | some value, some name =>
          match store.assign name value with
          | .ok store => storeAnswers store answers targets
          | .error e => (some e, store)
      | _, _ => storeAnswers store answers targets
  | _, _ => (none, store)

end World

namespace Origin

/-- The whole line. -/
def span (o : Origin) : Span := ⟨o.line, 0, o.width⟩

/-- A fault of the instruction on the line. -/
def fault (o : Origin) (message : String) : RunFault := ⟨o.span, message⟩

end Origin

namespace Step

/-- Starts the next pass through a loop, or leaves the loop. Either takes a tick. -/
def enterLoop (left : Nat) (body : List Instruction) (jobs : List Job) : Step :=
  match left with
  | 0 => .tick jobs
  | left + 1 => .tick (.block body :: .passes left body :: jobs)

/-- Performs an action in front of some jobs. -/
def ofAction (w : World) (origin : Origin) (jobs : List Job) : Action → Step × World
  | .clearScreen => (.tick jobs, { w with handset := w.handset.clearScreen })
  | .fill area => (.tick jobs, { w with handset := w.handset.fill area })
  | .clear area => (.tick jobs, { w with handset := w.handset.clear area })
  | .invert area => (.tick jobs, { w with handset := w.handset.invert area })
  | .moveCursor x y =>
      match w.operandValue x with
      | .error message => (.fail (origin.fault message), w)
      | .ok x =>
          match w.operandValue y with
          | .error message => (.fail (origin.fault message), w)
          | .ok y => (.tick jobs, { w with handset := w.handset.setCursor x y })
  | .work n => (.tick (if n ≤ 1 then jobs else .ticks (n - 1) :: jobs), w)
  | .sleep ms => (.wait (.sleep (ms * 1000000).toUInt64) (.ticks 1 :: jobs), w)
  | .inkey => (.wait .key (.awaitKey :: jobs), w)
  | .input request targets =>
      (.wait (.input request) (.awaitAnswers origin request targets :: jobs), w)
  | .assign name subs value =>
      let stored :=
        if subs.isEmpty then w.store.assign name value else w.store.setElement name subs value
      match stored with
      | .ok store => (.tick jobs, { w with store })
      | .error e => (.fail (origin.fault e.message), w)
  | .dim name dims =>
      match w.store.dim name dims with
      | .bound store => (.tick jobs, { w with store })
      | .already => (.fail (origin.fault ("array " ++ name ++ " is already dimensioned")), w)
      | .uncountable => (.tick jobs, { w with brokenOff := true })
  | .openFile name =>
      match w.openFile with
      | some other => (.fail (origin.fault ("file " ++ other ++ " is already open")), w)
      | none => (.tick jobs, { w with openFile := some name })
  | .closeFile =>
      match w.openFile with
      | some _ => (.tick jobs, { w with openFile := none })
      | none => (.fail (origin.fault "no file is open"), w)
  | .fail message => (.fail (origin.fault message), w)
  | .finish => (.done, w)

/-- Takes answers to a request, of which there must be one per field. -/
def ofAnswers (w : World) (origin : Origin) (request : Request) (targets : List (Option String))
    (jobs : List Job) (resume : Resume) : Step × World :=
  let refused := origin.fault ("INPUT expects " ++ toString request.fields.length ++ " values")
  match resume with
  | .answers values =>
      if values.length = request.fields.length then
        let (error, store) := World.storeAnswers w.store values targets
        let w := { w with store, received := w.received + values.length }
        match error with
        | none => (.tick jobs, w)
        | some e => (.fail (origin.fault e.message), w)
      else (.fail refused, w)
  | _ => (.fail refused, w)

/-- Takes the top job to the next tick or wait. Only a job that waits looks at what the
    program is resumed with. -/
def next (w : World) (resume : Resume) : List Job → Step × World
  | [] => (.done, w)
  | .block [] :: jobs => next w resume jobs
  | .block (.act origin action :: rest) :: jobs => ofAction w origin (.block rest :: jobs) action
  | .block (.loop _ count body :: rest) :: jobs => (enterLoop count body (.block rest :: jobs), w)
  | .passes left body :: jobs => (enterLoop left body jobs, w)
  | .ticks 0 :: jobs => next w resume jobs
  | .ticks (left + 1) :: jobs => (.tick (.ticks left :: jobs), w)
  | .awaitKey :: jobs =>
      match resume with
      | .key code => (.tick jobs, { w with lastKey := some code })
      | _ => (.wait .key (.awaitKey :: jobs), w)
  | .awaitAnswers origin request targets :: jobs =>
      ofAnswers w origin request targets jobs resume

end Step

/-- What is left of a run and the world it changes. No jobs at all, not even an empty list of
    them, are left of a run that is over. -/
structure Run where
  jobs : Option (List Job)
  world : World

namespace Run

/-- Runs at most `budget` ticks of the jobs, of which there is at least one. -/
def batch (w : World) (resume : Resume) (jobs : List Job) : Nat → Outcome × Run
  | 0 => (.more, ⟨some jobs, w⟩)
  | budget + 1 =>
      match Step.next w resume jobs with
      | (.tick jobs, w) => batch w .nothing jobs budget
      | (.wait outcome jobs, w) => (outcome, ⟨some jobs, w⟩)
      | (.fail fault, w) => (.failed fault, ⟨none, w⟩)
      | (.done, w) => (.done, ⟨none, w⟩)

/-- Runs a batch. A batch has at least one tick, and a run that is over stays so. -/
def exec (run : Run) (resume : Resume) (maxTicks : Nat) : Outcome × Run :=
  match run.jobs with
  | none => (.done, run)
  | some jobs => batch run.world resume jobs (max maxTicks 1)

end Run

end PocketBasic
