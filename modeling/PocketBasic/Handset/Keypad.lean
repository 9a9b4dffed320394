import PocketBasic.Terminal.Input

/-! # Keys of the handset

The codes of the handset's keys, the keys of the host that stand for them, and the buttons
of the on-screen keypad.
-/

namespace PocketBasic.Keypad

/-- The handset's digits share the letter keys of the numeric block. -/
def digitKeys : List Char := "bnmghjtyu".toList

/-- The key a character stands for. -/
def charKey? (c : Char) : Option UInt8 :=
  if c.isAlpha then some c.toLower.toNat.toUInt8
  else if '1' ≤ c ∧ c ≤ '9' then digitKeys[c.toNat - '1'.toNat]?.map (·.toNat.toUInt8)
  else
    match c with
    | '0' => some 48
    | '.' => some 46
    | ' ' => some 32
    | '~' => some 18
    | _ => none

/-- The key that an event of the host stands for. A terminal never reports a modifier alone, so
    modified spaces stand for the modifiers. -/
def key? : Input → Option UInt8
  | .function n => if 1 ≤ n ∧ n ≤ 4 then some (27 + n).toUInt8 else none
  | .cursorUp => some 20
  | .cursorDown => some 21
  | .cursorRight => some 22
  | .cursorLeft => some 23
  | .enter => some 13
  | .pageDown => some 14
  | .pageUp => some 19
  | .escape => some 27
  | .shiftSpace => some 26
  | .ctrlSpace => some 25
  | .char c => charKey? c
  | _ => none

/-- A button of the on-screen keypad. -/
structure Button where
  label : String
  code : UInt8
  deriving Repr, DecidableEq

/-- The rows of the keypad; `none` where there is no button. -/
def buttons : List (List (Option Button)) :=
  let b (label : String) (code : UInt8) : Option Button := some ⟨label, code⟩
  [[none, none, none, none, none, none, b "F1" 28, b "F2" 29, b "F3" 30, b "F4" 31],
    [b "Q" 113, b "W" 119, b "E" 101, b "R" 114, b "T 7" 116, b "Y 8" 121, b "U 9" 117,
      b "I" 105, b "O" 111, b "P" 112],
    [b "A" 97, b "S" 115, b "D" 100, b "F" 102, b "G 4" 103, b "H 5" 104, b "J 6" 106,
      b "K" 107, b "L" 108, b "Enter" 13],
    [b "Z" 122, b "X" 120, b "C" 99, b "V" 118, b "B 1" 98, b "N 2" 110, b "M 3" 109,
      b "PgUp" 19, b "↑" 20, b "PgDn" 14],
    [b "Help" 25, b "Shift" 26, b "IME" 18, b "Esc" 27, b "0" 48, b "." 46, b "Space" 32,
      b "←" 23, b "↓" 21, b "→" 22]]

/-- Number of rows. -/
def rowCount : Nat := 5

/-- Number of buttons in a row, with the gaps. -/
def colCount : Nat := 10

/-- The button in a row and column, which count from zero. -/
def buttonAt? (row col : Nat) : Option Button :=
  (buttons[row]?.bind (·[col]?)).join

end PocketBasic.Keypad
