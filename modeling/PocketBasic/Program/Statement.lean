import PocketBasic.Number.Literal
import PocketBasic.Program.Instruction
import PocketBasic.Text.Blank

/-! # Statements

One line of a program is one statement: an action, the head of a loop or its foot. `Statement.read`
reads the text of a line without its comment and without blanks around it.
-/

namespace PocketBasic

/-- What one line of a program says. -/
inductive Statement where
  | act (action : Action)
  /-- `repeat`, the head of a loop. -/
  | head (count : Nat)
  /-- `next`, the foot of a loop. -/
  | foot
  deriving Repr, DecidableEq

namespace Statement

open Text Number

/-- Largest 32-bit number. -/
def maxNumber : Nat := 4294967295

/-- An uppercase ASCII letter. -/
def isCapital (c : Char) : Bool := 'A' ≤ c && c ≤ 'Z'

/-- The part of a name before its type suffix. -/
def stem (s : List Char) : List Char :=
  match s.getLast? with
  | some '$' => s.dropLast
  | some '%' => s.dropLast
  | _ => s

/-- A capital, then capitals and digits, then at most one type suffix. -/
def isName (s : List Char) : Bool :=
  match stem s with
  | [] => false
  | c :: rest => isCapital c && rest.all fun d => isCapital d || (digitValue? d).isSome

/-- Numbers between blanks. -/
def numbers (s : List Char) : Except LineFault (List Nat) :=
  (words s).mapM fun w => (readNat maxNumber w).mapError .badNumber

/-- A single number. A word that is no number is reported before a wrong count is. -/
def number (s : List Char) : Except LineFault Nat := do
  match ← numbers s with
  | [n] => .ok n
  | found => .error (.argumentCount 1 found.length)

/-- Origin and size of an area, which is clipped to the screen. -/
def area (s : List Char) : Except LineFault PixelRect := do
  match ← numbers s with
  | [x, y, width, height] => .ok (.ofSize x y width height)
  | found => .error (.argumentCount 4 found.length)

/-- A variable or a number. -/
def operand (s : List Char) : Except LineFault Operand :=
  if isName s then .ok (.variable (String.ofList s))
  else (readNat maxNumber s).mapError .badNumber |>.map .literal

/-- Numbers between commas, each with blanks around it. -/
def subscripts (s : List Char) : Except LineFault (List UInt16) :=
  (splitAll (· = ',') s).mapM fun part =>
    (readNat 65535 (trim part)).mapError .badSubscript |>.map Nat.toUInt16

/-- A name alone, or a name and subscripts in parentheses. Subscripts are checked before the
    name is. -/
def target (s : List Char) : Except LineFault (String × List UInt16) := do
  let (name, subs) ←
    match splitFirst (· = '(') s with
    | none => .ok (s, [])
    | some (name, rest) =>
        match dropLast? ')' rest with
        | none => .error .closingParenthesis
        | some inner => (subscripts inner).map fun subs => (name, subs)
  if isName name then .ok (String.ofList name, subs)
  else .error (.badName (String.ofList name))

/-- A value of the given type. A string stands in quotes and holds ASCII characters only. -/
def literal (type : ValueType) (s : List Char) : Except LineFault Value :=
  let value? : Option Value :=
    match type with
    | .integer => (readInt 32767 s).toOption.map fun n => .integer (Int16.ofInt n)
    | .real => (real? s).bind fun x => if x.isFinite then some (.real x) else none
    | .string =>
        (between? '"' '"' s).bind fun inner =>
          if inner.all fun c => c.toNat < 128 then some (.string ⟨toBytes inner⟩) else none
  match value? with
  | some value => .ok value
  | none => .error (.badValue (String.ofList s))

/-- A name and parameter as in `fn:F(X)`, neither of them empty. -/
def functionField? (s : List Char) : Option FieldKind := do
  let call ← dropStart? "fn:".toList s
  let call ← dropLast? ')' call
  let (name, param) ← splitFirst (· = '(') call
  if name.isEmpty || param.isEmpty then none
  else some (.func (String.ofList name) (String.ofList param))

/-- A field of a request: a variable, which takes the answer, or the bare kind of a value. -/
def field (s : List Char) : Except LineFault (FieldKind × Option String) :=
  if isName s then
    let name := String.ofList s
    .ok ((ValueType.ofName name).fieldKind, some name)
  else if s = "int".toList then .ok (.integer, none)
  else if s = "real".toList then .ok (.real, none)
  else if s = "str".toList then .ok (.string, none)
  else
    match functionField? s with
    | some kind => .ok (kind, none)
    | none => .error (.unknownField (String.ofList s))

/-- The prompt in quotes, if there is one, and the text after it. -/
def prompt (s : List Char) : Except LineFault (Option String × List Char) :=
  match s with
  | '"' :: quoted =>
      match splitFirst (· = '"') quoted with
      | some (text, rest) => .ok (some (String.ofList text), rest)
      | none => .error .unterminatedPrompt
  | _ => .ok (none, s)

/-- An optional prompt and at least one field. -/
def input (s : List Char) : Except LineFault Action := do
  let (prompt, rest) ← prompt s
  let fields ← (words rest).mapM field
  if fields.isEmpty then .error .noFields
  else .ok (.input ⟨prompt, fields.map (·.1)⟩ (fields.map (·.2)))

/-- A target and a value. -/
def assignment (s : List Char) : Except LineFault Action := do
  match splitFirst isBlank s with
  | none => .error .valueExpected
  | some (first, rest) =>
      let (name, subs) ← target first
      let value ← literal (.ofName name) (trim rest)
      .ok (.assign name subs value)

/-- A name and the dimensions of its array. -/
def dimension (s : List Char) : Except LineFault Action := do
  let (name, dims) ← target s
  if dims.isEmpty then .error .dimensionsExpected else .ok (.dim name dims)

/-- Two operands between blanks. -/
def cursor (s : List Char) : Except LineFault Action := do
  match words s with
  | [x, y] => .ok (.moveCursor (← operand x) (← operand y))
  | _ => .error .operandPair

/-- Reads the statement that a keyword, in lower case, and the text after it make. -/
def ofKeyword (keyword : String) (rest : List Char) : Except LineFault Statement :=
  match keyword with
  | "cls" => .ok (.act .clearScreen)
  | "fill" => (area rest).map (.act <| .fill ·)
  | "clear" => (area rest).map (.act <| .clear ·)
  | "invert" => (area rest).map (.act <| .invert ·)
  | "cursor" => (cursor rest).map .act
  | "work" => (number rest).map (.act <| .work ·)
  | "sleep" => (number rest).map (.act <| .sleep ·)
  | "inkey" => .ok (.act .inkey)
  | "input" => (input rest).map .act
  | "let" => (assignment rest).map .act
  | "dim" => (dimension rest).map .act
  | "open" =>
      if rest.isEmpty then .error .fileNameExpected
      else .ok (.act (.openFile (String.ofList rest)))
  | "close" => .ok (.act .closeFile)
  | "error" => .ok (.act (.fail (String.ofList rest)))
  | "end" => .ok (.act .finish)
  | "repeat" => (number rest).map .head
  | "next" => .ok .foot
  | _ => .error (.unknownInstruction keyword)

/-- Reads the statement of a line. Keywords may be written in any case. -/
def read (s : List Char) : Except LineFault Statement :=
  let (keyword, rest) := (splitFirst isBlank s).getD (s, [])
  ofKeyword (String.ofList (keyword.map Char.toLower)) (trim rest)

end Statement

end PocketBasic
