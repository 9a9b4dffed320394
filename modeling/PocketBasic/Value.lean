import PocketBasic.Number.Binary64
import PocketBasic.Text.Bytes

/-! # Values of the pocket computer

Variables hold 16-bit integers, reals or strings of the device's one-byte character set. Which of
the three is written into the variable's name.
-/

namespace PocketBasic

/-- A string in the device character set. -/
structure DeviceString where
  bytes : List UInt8
  deriving Repr, DecidableEq, Inhabited

namespace DeviceString

/-- The empty string. -/
def empty : DeviceString := ⟨[]⟩

def length (s : DeviceString) : Nat := s.bytes.length

/-- The string as text to show; bytes that form no character are replaced. -/
def toText (s : DeviceString) : List Char :=
  Text.ofBytesLossy s.bytes

end DeviceString

/-- The type of a variable. -/
inductive ValueType where
  | integer
  | real
  | string
  deriving Repr, DecidableEq

namespace ValueType

/-- The type that a name's last character gives: `$` for strings, `%` for integers, and reals for
    any other name. -/
def ofName (name : String) : ValueType :=
  match name.toList.getLast? with
  | some '$' => .string
  | some '%' => .integer
  | _ => .real

end ValueType

/-- The value of a variable or of an array element. -/
inductive Value where
  | integer (n : Int16)
  | real (x : Binary64)
  | string (s : DeviceString)
  deriving Repr, DecidableEq

namespace Value

/-- The value of a variable that was never assigned. -/
def zero : ValueType → Value
  | .integer => .integer 0
  | .real => .real .zero
  | .string => .string .empty

/-- The type of a value. -/
def type : Value → ValueType
  | .integer _ => .integer
  | .real _ => .real
  | .string _ => .string

theorem type_zero (t : ValueType) : (zero t).type = t := by
  cases t <;> rfl

end Value

end PocketBasic
