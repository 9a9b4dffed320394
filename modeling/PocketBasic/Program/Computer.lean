import PocketBasic.Program.FunctionBody
import PocketBasic.Program.Machine
import PocketBasic.Program.Source

/-! # The pocket computer

A handset with a program on it: the engine that runs scripts and the device they draw on.
-/

namespace PocketBasic

/-- A program, the run of it and the number of the next function body. -/
structure Computer where
  program : List Instruction
  run : Run
  nextBody : Nat

namespace Computer

/-- Goes back to the start of the program. The handset keeps what is on it. -/
def reset (c : Computer) : Computer :=
  { c with run := ⟨some [.block c.program], .fresh c.run.world.handset⟩ }

/-- A computer with a program that has not run yet. -/
def ofProgram (program : List Instruction) : Computer :=
  { program, run := ⟨some [.block program], .fresh .blank⟩, nextBody := 1 }

/-- A computer with the program of a source text. -/
def load (source : String) : Except ScriptError Computer :=
  (Source.read source.toList).map ofProgram

def exec (c : Computer) (resume : Resume) (maxTicks : Nat) : Outcome × Computer :=
  let (outcome, run) := c.run.exec resume maxTicks
  (outcome, { c with run })

/-- Ends the run. A file that is still open is closed and complained about. -/
def stop (c : Computer) : Option String × Computer :=
  (c.run.world.openFile.map fun name => "file " ++ name ++ " was not closed by the program",
    { c with run := ⟨none, { c.run.world with openFile := none }⟩ })

def compile (c : Computer) (units : List UInt16) : Compilation × Computer :=
  let text := Text.ofUnitsLossy units
  (⟨⟨c.nextBody, String.ofList text⟩, FunctionBody.diagnostics text⟩,
    { c with nextBody := c.nextBody + 1 })

/-- The device has the ASCII characters. The first unit at fault is reported. -/
def encodeChars : List (Option Char) → Except EncodingError (List UInt8)
  | [] => .ok []
  | none :: _ => .error .invalidUtf16
  | some c :: rest =>
      if c.toNat < 128 then (encodeChars rest).map (c.toNat.toUInt8 :: ·)
      else .error (.invalidChar c.toNat)

def encode (units : List UInt16) : Except EncodingError DeviceString :=
  (encodeChars (Text.decodeUnits units)).map DeviceString.mk

/-- Applies an operation to the handset. -/
def mapHandset (c : Computer) (f : Handset → Handset) : Computer :=
  { c with run.world.handset := f c.run.world.handset }

def handset (c : Computer) : Handset := c.run.world.handset

instance : Engine Computer where
  exec := exec
  stop := stop
  reset := reset
  compile := compile
  encode _ := encode
  release c _ := c
  store c := c.run.world.store
  withStore c store := { c with run.world.store := store }
  brokenOff c := c.run.world.brokenOff

instance : Device Computer where
  restart c := c.mapHandset Handset.restart
  takeKey c :=
    let (key, handset) := c.handset.takeKey
    (key, c.mapHandset fun _ => handset)
  keyDown c key := c.mapHandset (·.keyDown key)
  keyUp c key := c.mapHandset (·.keyUp key)
  blink c := c.mapHandset Handset.blink
  hideCaret c := c.mapHandset Handset.hideCaret
  isPressed c key := c.handset.isPressed key
  takeDirty c :=
    let (area, handset) := c.handset.takeDirty
    (area, c.mapHandset fun _ => handset)
  pixel c x y := c.handset.pixel x y

end Computer

end PocketBasic
