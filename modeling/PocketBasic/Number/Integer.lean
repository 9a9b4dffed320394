/-! # Reading integers

Decimal integers of a bounded range. A reader looks at one digit after the other and stops at the
first trouble, so a text with both faults is reported by whichever comes first: in range `0 … 9`,
`12x` is too large and `1x2` has an invalid digit.
-/

namespace PocketBasic

/-- Why a text is no integer of the range asked for. -/
inductive IntegerFault where
  /-- The text is empty. -/
  | empty
  /-- A character that is no digit, or a sign alone. -/
  | invalidDigit
  /-- Above the largest integer of the range. -/
  | tooLarge
  /-- Below the smallest integer of the range. -/
  | tooSmall
  deriving Repr, DecidableEq

namespace IntegerFault

/-- The wording of a fault. -/
def message : IntegerFault → String
  | .empty => "cannot parse integer from empty string"
  | .invalidDigit => "invalid digit found in string"
  | .tooLarge => "number too large to fit in target type"
  | .tooSmall => "number too small to fit in target type"

end IntegerFault

namespace Number

/-- The value of a decimal digit. -/
def digitValue? (c : Char) : Option Nat :=
  if '0' ≤ c && c ≤ '9' then some (c.toNat - '0'.toNat) else none

/-- Reads digits behind a number already read. `past` is the fault of passing `limit`. -/
def readDigits (limit : Nat) (past : IntegerFault) (acc : Nat) : List Char → Except IntegerFault Nat
  | [] => .ok acc
  | c :: rest =>
      match digitValue? c with
      | none => .error .invalidDigit
      | some d =>
          if acc * 10 + d ≤ limit then readDigits limit past (acc * 10 + d) rest
          else .error past

/-- Reads at least one digit. -/
def readMagnitude (limit : Nat) (past : IntegerFault) (s : List Char) : Except IntegerFault Nat :=
  if s.isEmpty then .error .invalidDigit else readDigits limit past 0 s

/-- Reads a number from 0 to `limit`, with or without a plus sign. -/
def readNat (limit : Nat) : List Char → Except IntegerFault Nat
  | [] => .error .empty
  | '+' :: rest => readMagnitude limit .tooLarge rest
  | s => readMagnitude limit .tooLarge s

/-- Reads a number from `-limit - 1` to `limit`, with or without a sign. -/
def readInt (limit : Nat) : List Char → Except IntegerFault Int
  | [] => .error .empty
  | '+' :: rest => (readMagnitude limit .tooLarge rest).map fun n => (n : Int)
  | '-' :: rest => (readMagnitude (limit + 1) .tooSmall rest).map fun n => -(n : Int)
  | s => (readMagnitude limit .tooLarge s).map fun n => (n : Int)

/-- The decimal digits of a number, without leading zeros; zero has one digit. -/
def digits (n : Nat) : List Char :=
  Nat.toDigits 10 n

/-- The number that decimal digits denote; other characters count as zero. -/
def ofDigits (s : List Char) : Nat :=
  s.foldl (fun acc c => acc * 10 + (digitValue? c).getD 0) 0

end Number

end PocketBasic
