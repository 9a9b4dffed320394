import PocketBasic.App
import PocketBasic.Settings.File

/-! # Launch

From the command line and the files it names to the application: the log file, the settings, what
the command line changes of them, the program, and the terminal, in this order. The first that
fails ends the launch.
-/

namespace PocketBasic

/-- What the command line says. -/
structure Options where
  /-- The program's file. -/
  script : String
  /-- The settings file, in place of the local one. -/
  config : Option String
  scale : Option Nat
  batchSize : Option Nat
  logFile : Option String
  /-- Start the program at once. -/
  run : Bool
  deriving Repr, DecidableEq

/-- What a launch finds around it. -/
structure Surroundings where
  /-- The text of a file, if it can be read. -/
  read : String → Option String
  /-- There is a file of this name. -/
  isFile : String → Bool
  /-- A file of this name can be created. -/
  canCreate : String → Bool
  /-- The standard input is a terminal. -/
  isTerminal : Bool

/-- Why a launch failed. -/
inductive LaunchError where
  | logFile (path : String)
  | settings (error : LoadError)
  | option (error : SettingsError)
  | script (path : String)
  | terminal
  deriving Repr, DecidableEq

namespace LaunchError

/-- What was being done. -/
def message : LaunchError → String
  | .logFile path => "cannot create log file " ++ path
  | .settings _ => "cannot load configuration"
  | .option _ => "invalid command line option"
  | .script path => "cannot open " ++ path
  | .terminal => "cannot set up the terminal"

/-- The trouble with the settings or with a file, by which it failed. -/
def cause : LaunchError → LoadError
  | .settings e => e
  | .option e => .invalid e
  | _ => .unreadable

end LaunchError

namespace Launch

/-- The settings file that is looked for when the command line names none. -/
def localSettings : String := "gvbsim.toml"

/-- The settings of the file that the command line names, of the local one, or the standard
    ones. -/
def loadSettings (s : Surroundings) (o : Options) : Except LoadError Settings :=
  match o.config with
  | some path => Settings.ofFile (s.read path)
  | none => if s.isFile localSettings then Settings.ofFile (s.read localSettings) else .ok .standard

/-- What the command line changes. -/
def override (o : Options) (s : SimulatorSettings) : SimulatorSettings :=
  { s with pixelScale := o.scale.getD s.pixelScale, batchSize := o.batchSize.getD s.batchSize }

/-- Creates the log file, if there is one. -/
def checkLog (s : Surroundings) (o : Options) : Except LaunchError Unit :=
  match o.logFile with
  | some path => if s.canCreate path then .ok () else .error (.logFile path)
  | none => .ok ()

/-- The settings with what the command line changes, checked. -/
def settings (s : Surroundings) (o : Options) : Except LaunchError Settings := do
  let loaded ← (loadSettings s o).mapError .settings
  let settings := { loaded with simulator := override o loaded.simulator }
  match settings.check with
  | some e => .error (.option e)
  | none => .ok settings

/-- The application on a terminal of a given size. -/
def app (s : Surroundings) (o : Options) (size : Nat × Nat) : Except LaunchError App := do
  checkLog s o
  let settings ← settings s o
  match s.read o.script with
  | none => .error (.script o.script)
  | some source =>
      if s.isTerminal then
        let a := App.opened size settings.simulator
          (.ofSource o.script source settings.editor.lineNumbers)
        .ok (if o.run then a.autostart else a)
      else .error .terminal

end Launch

end PocketBasic
