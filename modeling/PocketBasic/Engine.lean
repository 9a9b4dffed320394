import PocketBasic.Engine.Diagnostic
import PocketBasic.Engine.Outcome
import PocketBasic.PixelRect
import PocketBasic.Store

/-! # Engines and devices

The simulator runs programs through two interfaces and never looks behind them. An engine runs a
loaded program batch by batch; a device is the pocket computer's screen, keyboard buffer and caret.
A program draws on the device it runs on, so both are operations on one state `σ`.
-/

namespace PocketBasic

/-- Why the engine refused to encode a text. -/
inductive EncodingError where
  /-- A surrogate without its partner. -/
  | invalidUtf16
  /-- A character that the device does not have. -/
  | invalidChar (codePoint : Nat)
  deriving Repr, DecidableEq

namespace EncodingError

/-- Code points are written with four digits in the basic plane and with six beyond it. -/
def hex (codePoint : Nat) : String :=
  let digits := (Nat.toDigits 16 codePoint).map Char.toUpper
  let width := if codePoint ≤ 0xFFFF then 4 else 6
  String.ofList (List.replicate (width - digits.length) '0' ++ digits)

def message : EncodingError → String
  | .invalidUtf16 => "invalid UTF-16 string"
  | .invalidChar c => "invalid character: U+" ++ hex c

end EncodingError

/-- An engine that runs a loaded program. -/
class Engine (σ : Type) where
  /-- Runs a batch of at most so many instructions. -/
  exec : σ → Resume → Nat → Outcome × σ
  /-- Stops a running program and closes what it left open; the text of a complaint, if any. -/
  stop : σ → Option String × σ
  /-- Goes back to the start of the program. -/
  reset : σ → σ
  /-- Compiles the body of a function. -/
  compile : σ → List UInt16 → Compilation × σ
  /-- Encodes a text in the device character set. -/
  encode : σ → List UInt16 → Except EncodingError DeviceString
  /-- Takes back a converted value that the program will not get. -/
  release : σ → Answer → σ
  /-- The variables of the program. -/
  store : σ → Store
  /-- Replaces the variables of the program. -/
  withStore : σ → Store → σ
  /-- The program has been broken off in the middle of a batch. Nothing is run after that, so what the other
      operations do then does not matter. -/
  brokenOff : σ → Bool

/-- The screen, keyboard buffer and caret of a pocket computer. -/
class Device (σ : Type) where
  /-- Switches the device off and on. -/
  restart : σ → σ
  /-- Takes the key that has waited longest. -/
  takeKey : σ → Option UInt8 × σ
  keyDown : σ → UInt8 → σ
  keyUp : σ → UInt8 → σ
  /-- Turns the caret on or off. -/
  blink : σ → σ
  /-- Leaves the caret off. -/
  hideCaret : σ → σ
  /-- The key is held down. -/
  isPressed : σ → UInt8 → Bool
  /-- Takes the area written since it was last taken. -/
  takeDirty : σ → Option PixelRect × σ
  /-- The pixel is lit. -/
  pixel : σ → Nat → Nat → Bool

end PocketBasic
