import PocketBasic.Launch
import PocketBasic.Number.Integer

/-! # Command line

The outermost layer: it reads the arguments and the files they name, hands what comes in on the
standard input to the application round by round, and writes what the application wants the
terminal to show. The terminal has to pass keys on at once and unchanged, and a read must not wait for
them, as after `stty raw -echo min 0 time 0`.
-/

namespace PocketBasic.CommandLine

/-- Shown when the arguments make no sense. -/
def usage : String :=
  "usage: gvbsim SCRIPT [--config FILE] [--scale N] [--batch-size N] [--log-file FILE] [--run]"

/-- The number an option is given. -/
def number? (limit : Nat) (text : String) : Option Nat :=
  (Number.readNat limit text.toList).toOption

/-- Reads the arguments, of which one without dashes is the program's file. -/
def options? (script : Option String) (o : Options) : List String → Option Options
  | [] => script.map fun script => { o with script }
  | "--config" :: path :: rest => options? script { o with config := some path } rest
  | "--scale" :: n :: rest =>
      (number? 255 n).bind fun n => options? script { o with scale := some n } rest
  | "--batch-size" :: n :: rest =>
      (number? 18446744073709551615 n).bind fun n =>
        options? script { o with batchSize := some n } rest
  | "--log-file" :: path :: rest => options? script { o with logFile := some path } rest
  | "--run" :: rest => options? script { o with run := true } rest
  | path :: rest =>
      if script.isSome || path.startsWith "--" then none else options? (some path) o rest

/-- Options before any argument is read. -/
def noOptions : Options :=
  { script := "", config := none, scale := none, batchSize := none, logFile := none, run := false }

/-- The text of a file, if it can be read. -/
def readFile? (path : String) : IO (Option String) := do
  try
    return some (← IO.FS.readFile path)
  catch _ =>
    return none

/-- Creates a file, if that is possible. -/
def create (path : String) : IO Bool := do
  try
    let _ ← IO.FS.Handle.mk path .write
    return true
  catch _ =>
    return false

/-- Whether a file can be opened. -/
def isFile (path : String) : IO Bool := do
  try
    let _ ← IO.FS.Handle.mk path .read
    return true
  catch _ =>
    return false

/-- What the launch finds around it, looked at beforehand. -/
def surroundings (o : Options) : IO Surroundings := do
  let paths := [o.script, Launch.localSettings] ++ o.config.toList
  let texts ← paths.mapM fun path => return (path, ← readFile? path)
  let hasLocal ← isFile Launch.localSettings
  let created ← match o.logFile with
    | some path => create path
    | none => pure true
  let isTerminal ← (← IO.getStdin).isTty
  return { read := fun path => (texts.lookup path).bind id, isFile := fun _ => hasLocal,
           canCreate := fun _ => created, isTerminal }

/-- Size of the terminal as the environment tells it. -/
def terminalSize : IO (Nat × Nat) := do
  let value (name : String) : IO Nat := do
    return ((← IO.getEnv name).bind (number? 65535)).getD 0
  return Terminal.sizeOrStandard (← value "COLUMNS") (← value "LINES")

/-- How long the rest of a sequence may take, in milliseconds. -/
def escapeWait : UInt32 := 10

/-- Reads until nothing is left to read, a packet at a time. An escape byte that comes alone is given the time for
    the rest of its sequence, which is the next packet then. -/
partial def readPackets (input : IO.FS.Stream) : IO (List (List UInt8)) := do
  let packet := (← input.read Terminal.readSize.toUSize).toList
  if packet.isEmpty then return []
  if packet = [27] then IO.sleep escapeWait
  return packet :: (← readPackets input)

/-- Plays rounds until the application quits, or is broken off. Whether it has quit. -/
partial def play (input output : IO.FS.Stream) (path : String) (a : App) : IO Bool := do
  let started ← IO.monoMsNow
  let packets ← readPackets input
  -- Only a key makes the application look at the file.
  let file ← if packets.isEmpty then pure none else readFile? path
  match a.frame? (← terminalSize) file packets with
  | none => return false
  | some (ops, a) =>
      output.putStr (TerminalOp.render ops)
      output.flush
      if a.quit then return true
      IO.sleep a.waitTime.toUInt32
      play input output path { a with loop := a.loop.advance ((← IO.monoMsNow) - started) }

/-- Runs the application on the terminal. Whether it has quit. -/
def run (path : String) (a : App) : IO Bool := do
  let output ← IO.getStdout
  output.putStr Terminal.enter
  try
    play (← IO.getStdin) output path a
  finally
    output.putStr Terminal.leave
    output.flush

/-- Shown when the application was broken off. -/
def overflow : String := "Error: arithmetic overflow"

end PocketBasic.CommandLine

open PocketBasic PocketBasic.CommandLine in
/-- Runs a program file in the simulator. -/
def main (args : List String) : IO UInt32 := do
  match options? none noOptions args with
  | none =>
      IO.eprintln usage
      return 2
  | some o =>
      let logFile ← match o.logFile with
        | some path => pure (some path)
        | none => IO.getEnv "GVBSIM_LOG"
      let o := { o with logFile }
      match Launch.app (← surroundings o) o (← terminalSize) with
      | .error e =>
          IO.eprintln ("Error: " ++ e.message)
          return 1
      | .ok a =>
          if ← run o.script a then return 0
          IO.eprintln overflow
          return 101
