import PocketBasic.Program.Machine

/-! # Programs without batches

What a program does when it is run in one go: its instructions one after the other, a loop as many times as
it says, and nothing else. There are no ticks and no stack of jobs. Whenever the program waits it takes
the next of the answers it is given; an account of a run lists why the program waited or ended, and
the world at each of these points.
-/

namespace PocketBasic

/-- What is seen of a run from the outside. -/
abbrev Transcript := List (Outcome × World)

/-- An account of a piece of a program. -/
structure Account where
  seen : Transcript
  /-- The world after the piece and the answers that it has not used; `none` if the program is over, or
      waits and there are no more answers. -/
  left : Option (World × List Resume)

/-- A piece of a program as what it does in a world with some answers. -/
abbrev Piece := World → List Resume → Account

namespace Account

/-- A piece at which nothing is seen. -/
def passed (w : World) (answers : List Resume) : Account := ⟨[], some (w, answers)⟩

/-- The end of the program. -/
def ended (outcome : Outcome) (w : World) : Account := ⟨[(outcome, w)], none⟩

/-- Goes on with a piece, unless the program is over. -/
def andThen (a : Account) (next : Piece) : Account :=
  match a.left with
  | none => a
  | some (w, answers) =>
      let b := next w answers
      ⟨a.seen ++ b.seen, b.left⟩

/-- Waits for the next answer. -/
def wait (outcome : Outcome) (w : World) (next : Resume → List Resume → Account) : List Resume → Account
  | [] => ended outcome w
  | answer :: rest =>
      let b := next answer rest
      ⟨(outcome, w) :: b.seen, b.left⟩

end Account

/-- What an action changes without waiting, or why it fails. -/
def Action.effect (w : World) : Action → Except String World
  | .clearScreen => .ok { w with handset := w.handset.clearScreen }
  | .fill area => .ok { w with handset := w.handset.fill area }
  | .clear area => .ok { w with handset := w.handset.clear area }
  | .invert area => .ok { w with handset := w.handset.invert area }
  | .moveCursor x y => do
      let x ← w.operandValue x
      let y ← w.operandValue y
      .ok { w with handset := w.handset.setCursor x y }
  | .assign name subs value =>
      let stored :=
        if subs.isEmpty then w.store.assign name value else w.store.setElement name subs value
      match stored with
      | .ok store => .ok { w with store }
      | .error e => .error e.message
  | .dim name dims =>
      match w.store.dim name dims with
      | .bound store => .ok { w with store }
      | .already => .error ("array " ++ name ++ " is already dimensioned")
      | .uncountable => .ok { w with brokenOff := true }
  | .openFile name =>
      match w.openFile with
      | some other => .error ("file " ++ other ++ " is already open")
      | none => .ok { w with openFile := some name }
  | .closeFile =>
      match w.openFile with
      | some _ => .ok { w with openFile := none }
      | none => .error "no file is open"
  | .fail message => .error message
  | .work _ | .sleep _ | .inkey | .input _ _ | .finish => .ok w

namespace Direct

/-- Takes a key from an answer. Any other answer is none, and the program asks again. -/
def key (w : World) (resume : Resume) (answers : List Resume) : Account :=
  match resume with
  | .key code => .passed { w with lastKey := some code } answers
  | _ =>
      match answers with
      | [] => .ended .key w
      | answer :: rest =>
          let b := key w answer rest
          ⟨(.key, w) :: b.seen, b.left⟩

/-- Takes values from an answer. They are stored one after the other up to the first that does not fit. -/
def values (w : World) (origin : Origin) (request : Request) (targets : List (Option String))
    (resume : Resume) (answers : List Resume) : Account :=
  let refused :=
    origin.fault ("INPUT expects " ++ toString request.fields.length ++ " values")
  match resume with
  | .answers values =>
      if values.length = request.fields.length then
        let (error, store) := World.storeAnswers w.store values targets
        let w := { w with store, received := w.received + values.length }
        match error with
        | none => .passed w answers
        | some e => .ended (.failed (origin.fault e.message)) w
      else .ended (.failed refused) w
  | _ => .ended (.failed refused) w

def action (origin : Origin) (act : Action) (w : World) (answers : List Resume) : Account :=
  match act with
  | .sleep ms => .wait (.sleep (ms * 1000000).toUInt64) w (fun _ => .passed w) answers
  | .inkey => .wait .key w (key w) answers
  | .input request targets =>
      .wait (.input request) w (values w origin request targets) answers
  | .finish => .ended .done w
  | act =>
      match act.effect w with
      | .ok w => .passed w answers
      | .error message => .ended (.failed (origin.fault message)) w

/-- Does a piece a number of times. -/
def times (piece : Piece) : Nat → Piece
  | 0, w, answers => .passed w answers
  | n + 1, w, answers => (piece w answers).andThen (times piece n)

mutual

def instruction : Instruction → Piece
  | .act origin act => action origin act
  | .loop _ count body => times (block body) count

def block : List Instruction → Piece
  | [] => .passed
  | i :: rest => fun w answers => (instruction i w answers).andThen (block rest)

end

/-- A whole program. Where its text ends, it ends. -/
def program (instructions : List Instruction) (w : World) (answers : List Resume) : Transcript :=
  ((block instructions w answers).andThen fun w _ => .ended .done w).seen

end Direct

end PocketBasic
