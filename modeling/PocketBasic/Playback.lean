import PocketBasic.Engine

/-! # Playback

An engine that returns outcomes from a list and a device with a plain key queue. Both keep a record
of what was asked of them, so that a rehearsal of the simulator can be looked at afterwards.
-/

namespace PocketBasic

/-- The engine of a rehearsal. -/
structure PlaybackEngine where
  /-- Outcomes still to return; after the last the program has ended. -/
  results : List Outcome
  /-- What the batches were resumed with. -/
  execs : List Resume
  stops : Nat
  resets : Nat
  /-- The complaint that the next stop makes. -/
  stopError : Option String
  /-- Values taken back. -/
  released : List Answer
  /-- Function bodies that hold this text do not compile. -/
  reject : Option String
  store : Store
  /-- Number of bodies compiled. -/
  bodies : Nat

/-- The device of a rehearsal. -/
structure PlaybackDevice where
  /-- Keys that wait for the program, the first in front. -/
  keys : List UInt8
  downs : List UInt8
  ups : List UInt8
  blinks : Nat
  hides : Nat
  restarts : Nat
  dirty : Option PixelRect
  lit : List (Nat × Nat)

/-- An engine and a device for a rehearsal. -/
structure Playback where
  engine : PlaybackEngine
  device : PlaybackDevice

namespace PlaybackEngine

/-- An engine with outcomes to return. -/
def ofResults (results : List Outcome) : PlaybackEngine :=
  { results, execs := [], stops := 0, resets := 0, stopError := none, released := [],
    reject := none, store := .empty, bodies := 0 }

def exec (e : PlaybackEngine) (resume : Resume) : Outcome × PlaybackEngine :=
  let e := { e with execs := e.execs ++ [resume] }
  match e.results with
  | [] => (.done, e)
  | outcome :: rest => (outcome, { e with results := rest })

def stop (e : PlaybackEngine) : Option String × PlaybackEngine :=
  (e.stopError, { e with stops := e.stops + 1, stopError := none })

/-- Byte offsets of the occurrences of a pattern, none of which overlaps the one before. The empty
    pattern occurs at every character and at the end. `skip` characters belong to the last
    occurrence. -/
def occurrences (pattern : List Char) (offset skip : Nat) : List Char → List Nat
  | [] => if pattern.isEmpty then [offset] else []
  | c :: rest =>
      let next := offset + c.utf8Size
      match skip with
      | skip + 1 => occurrences pattern next skip rest
      | 0 =>
          if pattern.isPrefixOf (c :: rest) then
            offset :: occurrences pattern next (pattern.length - 1) rest
          else occurrences pattern next 0 rest

/-- One error for each occurrence of the rejected text. -/
def diagnostics (e : PlaybackEngine) (body : List Char) : List Diagnostic :=
  match e.reject with
  | none => []
  | some bad =>
      (occurrences bad.toList 0 0 body).map fun start =>
        ⟨start, start + bad.utf8ByteSize, .error, "unexpected " ++ bad⟩

def compile (e : PlaybackEngine) (units : List UInt16) : Compilation × PlaybackEngine :=
  let text := Text.ofUnitsLossy units
  (⟨⟨e.bodies + 1, String.ofList text⟩, e.diagnostics text⟩, { e with bodies := e.bodies + 1 })

/-- The device has the ASCII characters. An unpaired surrogate anywhere is reported before a
    character that the device does not have. -/
def encode (units : List UInt16) : Except EncodingError DeviceString :=
  match (Text.decodeUnits units).mapM id with
  | none => .error .invalidUtf16
  | some text =>
      match text.find? fun c => 128 ≤ c.toNat with
      | some c => .error (.invalidChar c.toNat)
      | none => .ok ⟨Text.toBytes text⟩

end PlaybackEngine

namespace PlaybackDevice

/-- A device with some pixels lit. -/
def ofLit (lit : List (Nat × Nat)) : PlaybackDevice :=
  { keys := [], downs := [], ups := [], blinks := 0, hides := 0, restarts := 0, dirty := none, lit }

def takeKey (d : PlaybackDevice) : Option UInt8 × PlaybackDevice :=
  match d.keys with
  | [] => (none, d)
  | key :: rest => (some key, { d with keys := rest })

/-- The key went down more often than up. -/
def isPressed (d : PlaybackDevice) (key : UInt8) : Bool :=
  d.ups.count key < d.downs.count key

end PlaybackDevice

namespace Playback

/-- Applies an operation to the device. -/
def mapDevice (p : Playback) (f : PlaybackDevice → PlaybackDevice) : Playback :=
  { p with device := f p.device }

instance : Engine Playback where
  exec p resume _ :=
    let (outcome, engine) := p.engine.exec resume
    (outcome, { p with engine })
  stop p :=
    let (complaint, engine) := p.engine.stop
    (complaint, { p with engine })
  reset p := { p with engine.resets := p.engine.resets + 1 }
  compile p units :=
    let (compilation, engine) := p.engine.compile units
    (compilation, { p with engine })
  encode _ := PlaybackEngine.encode
  release p value := { p with engine.released := p.engine.released ++ [value] }
  store p := p.engine.store
  withStore p store := { p with engine.store := store }
  brokenOff _ := false

instance : Device Playback where
  restart p := p.mapDevice fun d => { d with restarts := d.restarts + 1, keys := [] }
  takeKey p :=
    let (key, device) := p.device.takeKey
    (key, { p with device })
  keyDown p key := p.mapDevice fun d => { d with downs := d.downs ++ [key], keys := d.keys ++ [key] }
  keyUp p key := p.mapDevice fun d => { d with ups := d.ups ++ [key] }
  blink p := p.mapDevice fun d => { d with blinks := d.blinks + 1 }
  hideCaret p := p.mapDevice fun d => { d with hides := d.hides + 1 }
  isPressed p key := p.device.isPressed key
  takeDirty p := (p.device.dirty, p.mapDevice fun d => { d with dirty := none })
  pixel p x y := p.device.lit.contains (x, y)

end Playback

end PocketBasic
