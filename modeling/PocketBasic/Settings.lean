/-! # Settings

What a user can set: how the handset is shown and timed, and whether the editor numbers its lines.
-/

namespace PocketBasic

/-- Settings of the simulator. Times are milliseconds, colors are `0xRRGGBB`. -/
structure SimulatorSettings where
  /-- 1: a terminal cell shows two by four pixels. 2: one by two. -/
  pixelScale : Nat
  foreground : Nat
  background : Nat
  /-- Ticks of one batch. -/
  batchSize : Nat
  repaintInterval : Nat
  cursorBlink : Nat
  minSleep : Nat
  keyRelease : Nat
  deriving Repr, DecidableEq

/-- Settings of the editor. -/
structure EditorSettings where
  lineNumbers : Bool
  deriving Repr, DecidableEq

structure Settings where
  simulator : SimulatorSettings
  editor : EditorSettings
  deriving Repr, DecidableEq

namespace SimulatorSettings

/-- The settings of a user who sets nothing. -/
def standard : SimulatorSettings :=
  { pixelScale := 2, foreground := 0x313132, background := 0x7A8870, batchSize := 50,
    repaintInterval := 17, cursorBlink := 500, minSleep := 1, keyRelease := 80 }

end SimulatorSettings

namespace Settings

/-- The settings of a user who sets nothing. -/
def standard : Settings := ⟨.standard, ⟨true⟩⟩

end Settings

/-- Why settings are refused. -/
inductive SettingsError where
  | pixelScale (value : Nat)
  /-- The named color has more than 24 bits. -/
  | color (name : String) (value : Nat)
  | batchSize
  /-- The named time is zero. -/
  | time (name : String)
  deriving Repr, DecidableEq

namespace SettingsError

def message : SettingsError → String
  | .pixelScale value =>
      "invalid configuration: simulator.pixel_scale must be 1 or 2, got " ++ toString value
  | .color name value =>
      "invalid configuration: simulator." ++ name ++ " is not an RGB color: 0x" ++
        String.ofList (Nat.toDigits 16 value)
  | .batchSize => "invalid configuration: simulator.batch_size must be positive"
  | .time name => "invalid configuration: simulator." ++ name ++ " must be positive"

end SettingsError

namespace SimulatorSettings

/-- Everything wrong with the settings, in the order in which it is looked for. -/
def faults (s : SimulatorSettings) : List SettingsError :=
  (if s.pixelScale = 1 ∨ s.pixelScale = 2 then [] else [.pixelScale s.pixelScale]) ++
    ([("foreground", s.foreground), ("background", s.background)].filterMap fun (name, value) =>
      if 0xFFFFFF < value then some (.color name value) else none) ++
    (if s.batchSize = 0 then [.batchSize] else []) ++
    ([("repaint_interval_ms", s.repaintInterval), ("cursor_blink_ms", s.cursorBlink),
        ("min_sleep_ms", s.minSleep), ("key_release_ms", s.keyRelease)].filterMap
      fun (name, value) => if value = 0 then some (.time name) else none)

end SimulatorSettings

namespace Settings

/-- The first fault of the settings, if there is one. -/
def check (s : Settings) : Option SettingsError := s.simulator.faults.head?

end Settings

end PocketBasic
