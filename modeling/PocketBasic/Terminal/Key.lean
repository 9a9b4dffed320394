import PocketBasic.Number.Integer
import PocketBasic.Text.Blank
import PocketBasic.Text.Bytes

/-! # Keys

What a terminal sends for a key: a control byte, the bytes of a character, or an escape sequence. A
sequence is taken apart into its final byte and its numbers. Mouse reports come as keys too.
-/

namespace PocketBasic

inductive MouseButton where
  | left
  | middle
  | right
  | wheelUp
  | wheelDown
  /-- The mouse moved with no button held. -/
  | none
  deriving Repr, DecidableEq

/-- A mouse report. Rows and columns count from one. -/
structure MouseReport where
  button : MouseButton
  row : Nat
  col : Nat
  pressed : Bool
  motion : Bool
  deriving Repr, DecidableEq

/-- A key of the host's keyboard, or a mouse report. -/
inductive Key where
  | char (c : Char)
  | enter
  | ctrlEnter
  | escape
  | backspace
  | delete
  | tab
  | shiftTab
  | up
  | down
  | left
  | right
  | home
  | «end»
  | pageUp
  | pageDown
  | shiftSpace
  | ctrlSpace
  | function (n : Nat)
  | ctrl (c : Char)
  | mouse (report : MouseReport)
  | unknown (bytes : List UInt8)
  deriving Repr, DecidableEq

namespace Key

open Text Number

/-- A control character: below the space, or from 7F to 9F. -/
def isControl (c : Char) : Bool :=
  c.toNat < 0x20 || (0x7F ≤ c.toNat && c.toNat ≤ 0x9F)

/-- The character of a code point, unless it is a surrogate or past the last one. -/
def charOf? (code : Nat) : Option Char :=
  if h : code.isValidChar then some (Char.ofNatAux code h) else none

/-- The fields between semicolons. -/
def fields (s : List Char) : List (List Char) := splitAll (· = ';') s

/-- A 32-bit number, if the field is one. -/
def number? (s : List Char) : Option Nat := (readNat 4294967295 s).toOption

/-- A bit of a number. -/
def hasBit (n bit : Nat) : Bool := n / bit % 2 = 1

/-- The button of a mouse report. -/
def buttonOf (code : Nat) : MouseButton :=
  if hasBit code 64 then (if code % 4 = 0 then .wheelUp else .wheelDown)
  else
    match code % 4 with
    | 0 => .left
    | 1 => .middle
    | 2 => .right
    | _ => .none

/-- A mouse report: code, column and row, which are 16-bit numbers, then `M` for a press or `m` for
    a release. -/
def mouse? (body : List UInt8) : Option MouseReport := do
  let final ← body.getLast?
  let pressed ← if final = 77 then some true else if final = 109 then some false else none
  let text ← ofBytes? body.dropLast
  match (fields text).map fun f => (readNat 65535 f).toOption with
  | [some code, some col, some row] =>
      some ⟨buttonOf code, row, col, pressed, hasBit code 32⟩
  | _ => none

/-- A key sent as its code point and its modifiers, which are sent plus one: shift is bit 1 and
    control bit 4. -/
def ofCodePoint? (code modifiers : Nat) : Option Key :=
  let bits := modifiers - 1
  let shift := hasBit bits 1
  let ctrl := hasBit bits 4
  if code = 13 then some (if ctrl then .ctrlEnter else .enter)
  else if code = 27 then some .escape
  else if code = 9 then some (if shift then .shiftTab else .tab)
  else if code = 127 then some .backspace
  else if code = 32 && ctrl then some .ctrlSpace
  else if code = 32 && shift then some .shiftSpace
  else
    match charOf? code with
    | none => none
    | some c =>
        if ctrl then if c.toLower.isLower then some (.ctrl c.toLower) else none
        else some (.char c)

/-- The key of a sequence that ends in `~`, which is told by its first number. -/
def ofTilde? (n : Nat) : Option Key :=
  match n with
  | 1 => some .home
  | 7 => some .home
  | 4 => some .end
  | 8 => some .end
  | 3 => some .delete
  | 5 => some .pageUp
  | 6 => some .pageDown
  | _ =>
      if 11 ≤ n ∧ n ≤ 15 then some (.function (n - 10))
      else if 17 ≤ n ∧ n ≤ 21 then some (.function (n - 11))
      else if 23 ≤ n ∧ n ≤ 24 then some (.function (n - 12))
      else none

/-- The key of a sequence with the given final byte and numbers. -/
def ofFinal? (final : Char) (first second : Option Nat) : Option Key :=
  match final with
  | 'A' => some .up
  | 'B' => some .down
  | 'C' => some .right
  | 'D' => some .left
  | 'H' => some .home
  | 'F' => some .end
  | 'Z' => some .shiftTab
  | '~' => first.bind ofTilde?
  | 'u' => first.bind fun code => ofCodePoint? code (second.getD 1)
  | _ => none

/-- The key of a sequence, read behind its introducer. -/
def ofSequence? (body : List UInt8) : Option Key :=
  match body with
  | 60 :: report => (mouse? report).map .mouse
  | _ => do
      let final ← body.getLast?
      let numbers := (fields (← ofBytes? body.dropLast)).map number?
      ofFinal? (Char.ofNat final.toNat) (numbers.headD none) (numbers.tail.headD none)

/-- The first character of the text of the bytes, unless it is a control character. -/
def ofText? (bytes : List UInt8) : Option Key :=
  match ofBytes? bytes with
  | some (c :: _) => if isControl c then none else some (.char c)
  | _ => none

/-- The key of a single byte, if it is one. -/
def ofByte? (b : UInt8) : Option Key :=
  if b = 13 then some .enter
  else if b = 10 then some .ctrlEnter
  else if b = 9 then some .tab
  else if b = 27 then some .escape
  else if b = 127 ∨ b = 8 then some .backspace
  else if b = 0 then some .ctrlSpace
  else if b ≤ 26 then some (.ctrl (Char.ofNat (96 + b.toNat)))
  else if 32 ≤ b ∧ b ≤ 126 then some (.char (Char.ofNat b.toNat))
  else none

/-- The key that some bytes, read at once, stand for. -/
def ofBytes (bytes : List UInt8) : Key :=
  let key? :=
    match bytes with
    | [b] => ofByte? b
    | [27, 79, f] =>
        if 80 ≤ f ∧ f ≤ 83 then some (.function (f.toNat - 79)) else ofText? bytes
    | 27 :: 91 :: body => ofSequence? body
    | _ => ofText? bytes
  key?.getD (.unknown bytes)

end Key

end PocketBasic
