import PocketBasic.Settings
import PocketBasic.Settings.Literal

/-! # Settings file

A settings file has a table `simulator` and a table `editor`, each with some of the settings. A
table is given by its header, by keys with a point, by an inline table, or by an array with
the settings in their order. Each table is given in one of these ways only and each setting once;
anything else in the file makes it unreadable.
-/

namespace PocketBasic.SettingsFile

/-- A statement of the file. -/
inductive Statement where
  /-- `[name]`: the settings that follow belong to a table. -/
  | header (name : String)
  | assign (key : List String) (value : Literal)

/-- Reads a header behind its opening bracket. -/
def header? (s : List Char) : Option (Statement × List Char) :=
  match key? (skipSpaces s) with
  | some ([name], ']' :: rest) => some (.header name, rest)
  | _ => none

/-- Reads an assignment. -/
def assign? (s : List Char) : Option (Statement × List Char) :=
  match key? s with
  | some (key, '=' :: rest) =>
      (value? (rest.length + 1) (depthLimit - 1) (skipSpaces rest)).map fun (v, rest) => (.assign key v, rest)
  | _ => none

/-- Reads the statements, with `fuel` for each of them and its line end. -/
def statements? : Nat → List Char → Option (List Statement)
  | 0, s => if s.isEmpty then some [] else none
  | fuel + 1, s =>
      match skipTrivia false s with
      | [] => some []
      | '[' :: rest => do
          let (statement, rest) ← header? rest
          (← statements? fuel (← endOfLine? rest)) |> fun more => some (statement :: more)
      | s => do
          let (statement, rest) ← assign? s
          (← statements? fuel (← endOfLine? rest)) |> fun more => some (statement :: more)

/-- One of the two tables. -/
inductive TableName where
  | simulator
  | editor
  deriving Repr, DecidableEq

/-- The table of a name. -/
def TableName.ofString? (name : String) : Option TableName :=
  if name = "simulator" then some .simulator
  else if name = "editor" then some .editor
  else none

/-- How a table is given. -/
inductive TableForm where
  /-- By keys with a point, which can go on. -/
  | dotted
  /-- In any other way, which is complete. -/
  | whole
  deriving Repr, DecidableEq

/-- The names of the settings of a table, in their order. -/
def fieldNames : TableName → List String
  | .simulator =>
      ["pixel_scale", "foreground", "background", "batch_size", "repaint_interval_ms",
        "cursor_blink_ms", "min_sleep_ms", "key_release_ms"]
  | .editor => ["line_numbers"]

/-- Largest value of a setting that is a number. -/
def fieldLimit (name : String) : Nat :=
  if name = "pixel_scale" then 255
  else if name = "foreground" || name = "background" then 4294967295
  else 9223372036854775807

/-- The settings with one number replaced. -/
def setNumber? (s : SimulatorSettings) (name : String) (n : Nat) : Option SimulatorSettings :=
  match name with
  | "pixel_scale" => some { s with pixelScale := n }
  | "foreground" => some { s with foreground := n }
  | "background" => some { s with background := n }
  | "batch_size" => some { s with batchSize := n }
  | "repaint_interval_ms" => some { s with repaintInterval := n }
  | "cursor_blink_ms" => some { s with cursorBlink := n }
  | "min_sleep_ms" => some { s with minSleep := n }
  | "key_release_ms" => some { s with keyRelease := n }
  | _ => none

/-- What has been read: the settings, the tables given so far and the settings given so far. -/
structure Draft where
  settings : Settings
  tables : List (TableName × TableForm)
  fields : List (TableName × String)

namespace Draft

/-- Nothing read yet. -/
def empty : Draft := ⟨.standard, [], []⟩

/-- Notes that a table is given in a form, which it can be only once unless it goes on. -/
def openTable? (d : Draft) (table : TableName) (form : TableForm) : Option Draft :=
  match d.tables.lookup table, form with
  | none, _ => some { d with tables := (table, form) :: d.tables }
  | some .dotted, .dotted => some d
  | some _, _ => none

/-- Gives one setting. -/
def setField? (d : Draft) (table : TableName) (name : String) (value : Literal) : Option Draft :=
  if d.fields.contains (table, name) then none
  else
    let d := { d with fields := (table, name) :: d.fields }
    match table, value with
    | .editor, .boolean b =>
        if name = "line_numbers" then some { d with settings.editor := ⟨b⟩ } else none
    | .simulator, .integer n =>
        if 0 ≤ n ∧ n ≤ fieldLimit name then
          (setNumber? d.settings.simulator name n.toNat).map fun s =>
            { d with settings.simulator := s }
        else none
    | _, _ => none

/-- Gives the settings of an inline table. -/
def setEntries? (d : Draft) (table : TableName) : List (List String × Literal) → Option Draft
  | [] => some d
  | ([name], value) :: rest => (d.setField? table name value).bind (setEntries? · table rest)
  | _ => none

/-- Gives the settings of a table by position; what comes after the last setting is not looked
    at. -/
def setItems? (d : Draft) (table : TableName) : List String → List Literal → Option Draft
  | name :: names, value :: values =>
      (d.setField? table name value).bind (setItems? · table names values)
  | _, _ => some d

/-- Gives a whole table. -/
def setTable? (d : Draft) (name : String) (value : Literal) : Option Draft := do
  let table ← TableName.ofString? name
  let d ← d.openTable? table .whole
  match value with
  | .table entries => d.setEntries? table entries
  | .array items => d.setItems? table (fieldNames table) items
  | _ => none

/-- Adds statements. `current` is the table of the last header. -/
def addAll? (d : Draft) (current : Option TableName) : List Statement → Option Draft
  | [] => some d
  | .header name :: rest => do
      let table ← TableName.ofString? name
      addAll? (← d.openTable? table .whole) (some table) rest
  | .assign key value :: rest => do
      let d ← match current, key with
        | some table, [name] => d.setField? table name value
        | none, [name] => d.setTable? name value
        | none, [name, field] => do
            let table ← TableName.ofString? name
            (← d.openTable? table .dotted).setField? table field value
        | _, _ => none
      addAll? d current rest

end Draft

/-- Reads a file, which may begin with a byte order mark. -/
def read? (text : List Char) : Option Settings := do
  let text := match text with
    | '\uFEFF' :: rest => rest
    | text => text
  let statements ← statements? text.length text
  (← Draft.empty.addAll? none statements) |> fun d => some d.settings

end PocketBasic.SettingsFile

namespace PocketBasic

/-- Why settings could not be loaded. -/
inductive LoadError where
  /-- The file cannot be read. -/
  | unreadable
  /-- The file is no settings file. -/
  | malformed
  | invalid (error : SettingsError)
  deriving Repr, DecidableEq

namespace Settings

/-- The settings of a file, if it is one and they pass the check. -/
def ofText (text : String) : Except LoadError Settings :=
  match SettingsFile.read? text.toList with
  | none => .error .malformed
  | some s =>
      match s.check with
      | some e => .error (.invalid e)
      | none => .ok s

/-- The settings of a file that may be missing. -/
def ofFile (text : Option String) : Except LoadError Settings :=
  match text with
  | some text => ofText text
  | none => .error .unreadable

end Settings

end PocketBasic
