import PocketBasic.Engine.Request
import PocketBasic.Number.Integer
import PocketBasic.PixelRect
import PocketBasic.Store

/-! # Programs

A program is a list of instructions. All but one of them are single actions; a loop repeats a list
of instructions. Every instruction remembers the source line it came from, for the faults it may
raise.
-/

namespace PocketBasic

/-- A number in an instruction: written out, or the current value of a variable. -/
inductive Operand where
  | literal (n : Nat)
  | variable (name : String)
  deriving Repr, DecidableEq

/-- What a single instruction does. -/
inductive Action where
  | clearScreen
  | fill (area : PixelRect)
  | clear (area : PixelRect)
  | invert (area : PixelRect)
  | moveCursor (x y : Operand)
  /-- Spends a number of ticks. -/
  | work (ticks : Nat)
  | sleep (ms : Nat)
  /-- Waits for a key. -/
  | inkey
  /-- Waits for values and stores each in the variable its field names, if it names one. -/
  | input (request : Request) (targets : List (Option String))
  | assign (name : String) (subscripts : Subscripts) (value : Value)
  | dim (name : String) (dimensions : Dimensions)
  | openFile (name : String)
  | closeFile
  | fail (message : String)
  | finish
  deriving Repr, DecidableEq

/-- The source line of an instruction and its length in bytes without trailing blanks. -/
structure Origin where
  line : Nat
  width : Nat
  deriving Repr, DecidableEq

/-- An instruction of a program. -/
inductive Instruction where
  | act (origin : Origin) (action : Action)
  | loop (origin : Origin) (count : Nat) (body : List Instruction)
  deriving Repr

namespace Instruction

def origin : Instruction → Origin
  | .act origin _ => origin
  | .loop origin _ _ => origin

end Instruction

/-- Why a source line is no instruction. -/
inductive LineFault where
  | unknownInstruction (keyword : String)
  | badNumber (fault : IntegerFault)
  | argumentCount (expected found : Nat)
  /-- The cursor position is not two operands. -/
  | operandPair
  | badSubscript (fault : IntegerFault)
  | closingParenthesis
  | badName (name : String)
  | badValue (text : String)
  | valueExpected
  | dimensionsExpected
  | fileNameExpected
  | unterminatedPrompt
  | unknownField (text : String)
  | noFields
  | nextWithoutRepeat
  | repeatWithoutNext
  deriving Repr, DecidableEq

namespace LineFault

def message : LineFault → String
  | .unknownInstruction keyword => "unknown instruction: " ++ keyword
  | .badNumber fault => "invalid number: " ++ fault.message
  | .argumentCount expected found =>
      "expected " ++ toString expected ++ " arguments, found " ++ toString found
  | .operandPair => "expected 2 arguments"
  | .badSubscript fault => "invalid subscript: " ++ fault.message
  | .closingParenthesis => "')' expected"
  | .badName name => "invalid variable name: " ++ name
  | .badValue text => "invalid value: " ++ text
  | .valueExpected => "value expected"
  | .dimensionsExpected => "dimensions expected"
  | .fileNameExpected => "file name expected"
  | .unterminatedPrompt => "unterminated prompt"
  | .unknownField text => "unknown field type: " ++ text
  | .noFields => "INPUT needs at least one field"
  | .nextWithoutRepeat => "NEXT without REPEAT"
  | .repeatWithoutNext => "REPEAT without NEXT"

end LineFault

/-- The first faulty line of a program. -/
structure ScriptError where
  line : Nat
  fault : LineFault
  deriving Repr, DecidableEq

namespace ScriptError

/-- The wording of the fault. -/
def message (e : ScriptError) : String := e.fault.message

/-- The error as one line of text; lines count from one. -/
def text (e : ScriptError) : String :=
  "line " ++ toString (e.line + 1) ++ ": " ++ e.message

end ScriptError

end PocketBasic
