import PocketBasic.Engine
import PocketBasic.Number.Literal
import PocketBasic.Text.Blank

/-! # Converting typed text

What a user types into a field becomes a value of the field's kind, or an error that belongs to that
field alone. Strings and function bodies are made by the engine; one that cannot be used is given
back to it.
-/

namespace PocketBasic

/-- Why a text is no value for its field. -/
inductive FieldError where
  | invalidInteger
  | integerOutOfRange
  | invalidReal
  | realOutOfRange
  | encoding (error : EncodingError)
  | stringTooLong (length : Nat)
  /-- The first error of a function body; columns count from one. -/
  | compile (column : Nat) (message : String)
  deriving Repr, DecidableEq

namespace FieldError

def message : FieldError → String
  | .invalidInteger => "not an integer"
  | .integerOutOfRange => "out of range: -32768 ~ 32767"
  | .invalidReal => "not a number"
  | .realOutOfRange => "out of range: -1.7E+38 ~ +1.7E+38"
  | .encoding e => e.message
  | .stringTooLong length =>
      "string length is " ++ toString length ++ ", exceeding the limit of 255"
  | .compile column message => "error (column " ++ toString column ++ "): " ++ message

end FieldError

namespace Conversion

/-- Longest string a field may hold, in device bytes. -/
def maxStringLength : Nat := 255

/-- Magnitude of the largest real of the device, 1.7E38. -/
def maxRealMagnitude : Nat := 0x47DFF933C78CDFAD

/-- Largest integer that is read at all; past it a text is out of range as soon as its digits pass
    it, whatever follows them. -/
def maxRead : Nat := 9223372036854775807

/-- Reads a 16-bit integer between blanks. -/
def integer (text : List Char) : Except FieldError Int16 :=
  match Number.readInt maxRead (Text.trim text) with
  | .ok n => if -32768 ≤ n ∧ n ≤ 32767 then .ok (.ofInt n) else .error .integerOutOfRange
  | .error .tooLarge => .error .integerOutOfRange
  | .error .tooSmall => .error .integerOutOfRange
  | .error _ => .error .invalidInteger

/-- Reads a real of the device between blanks. -/
def real (text : List Char) : Except FieldError Binary64 :=
  match Number.real? (Text.trim text) with
  | none => .error .invalidReal
  | some x =>
      if x.isNaN then .error .invalidReal
      else if maxRealMagnitude < x.magnitude then .error .realOutOfRange
      else .ok x

variable {σ : Type} [Engine σ]

/-- Encodes a string, which may not be too long. -/
def string (engine : σ) (text : List Char) : Except FieldError DeviceString × σ :=
  match Engine.encode engine (Text.toUnits text) with
  | .error e => (.error (.encoding e), engine)
  | .ok s =>
      if maxStringLength < s.length then
        (.error (.stringTooLong s.length), Engine.release engine (.string s))
      else (.ok s, engine)

/-- Compiles a function body, which may not have errors. -/
def body (engine : σ) (text : List Char) : Except FieldError FnBody × σ :=
  let (compiled, engine) := Engine.compile engine (Text.toUnits text)
  match compiled.firstError with
  | some d => (.error (.compile (d.start + 1) d.message), Engine.release engine (.func compiled.body))
  | none => (.ok compiled.body, engine)

/-- Converts the text of a field. -/
def answer (engine : σ) (text : List Char) : FieldKind → Except FieldError Answer × σ
  | .integer => ((integer text).map .integer, engine)
  | .real => ((real text).map .real, engine)
  | .string =>
      let (s, engine) := string engine text
      (s.map .string, engine)
  | .func _ _ =>
      let (b, engine) := body engine text
      (b.map .func, engine)

/-- Converts a text to the value of a variable, by the same rules. -/
def value (engine : σ) (text : List Char) : ValueType → Except FieldError Value × σ
  | .integer => ((integer text).map .integer, engine)
  | .real => ((real text).map .real, engine)
  | .string =>
      let (s, engine) := string engine text
      (s.map .string, engine)

end Conversion

end PocketBasic
