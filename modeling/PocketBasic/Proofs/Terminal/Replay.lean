import PocketBasic.Terminal.Grid
import PocketBasic.Terminal.Key

/-! # What a terminal makes of its output

A terminal gets characters. It prints those that stand for themselves and carries out the control
sequences: cursor moves, colors by their components, and whether the cursor is seen. Read this way, the
text of an operation does to a grid what the operation does, but that colors lose their names.
-/

namespace PocketBasic

/-- The color by its components, which is how a terminal gets it. -/
def Color.resolved (c : Color) : Color :=
  .rgb c.components.1 c.components.2.1 c.components.2.2

def Cell.resolved (c : Cell) : Cell := ⟨c.ch, c.fg.resolved, c.bg.resolved⟩

def TerminalOp.resolved : TerminalOp → TerminalOp
  | .colors fg bg => .colors fg.resolved bg.resolved
  | op => op

@[simp] theorem TerminalOp.resolved_resolved (op : TerminalOp) : op.resolved.resolved = op.resolved := by
  cases op <;> rfl

/-- How far a terminal is in a control sequence. -/
inductive ControlMode where
  | ground
  | escape
  /-- The parameters that are complete, and the number that is being read. -/
  | parameters (priv : Bool) (before : List Nat) (current : Nat)
  deriving Repr, DecidableEq

namespace Grid

/-- Row and column of the next character. -/
def place (g : Grid) : Nat × Nat :=
  if g.width < g.col then (g.row + 1, 1) else (g.row, g.col)

/-- Index of the cell that the next character is printed into. -/
def target (g : Grid) : Nat := (g.place.1 - 1) * g.width + (g.place.2 - 1)

theorem print_eq (g : Grid) (c : Char) :
    g.print c =
      { g with
        cells :=
          if g.place.1 ≤ g.height then g.cells.setIfInBounds g.target ⟨c, g.fg, g.bg⟩ else g.cells
        row := g.place.1, col := g.place.2 + 1 } := rfl

/-- Selects colors by the parameters of a control sequence. -/
def select (g : Grid) : List Nat → Grid
  | 38 :: 2 :: red :: green :: blue :: rest =>
      { g with fg := .rgb red.toUInt8 green.toUInt8 blue.toUInt8 }.select rest
  | 48 :: 2 :: red :: green :: blue :: rest =>
      { g with bg := .rgb red.toUInt8 green.toUInt8 blue.toUInt8 }.select rest
  | _ :: rest => g.select rest
  | [] => g

/-- Carries out a control sequence. -/
def control (g : Grid) (priv : Bool) (parameters : List Nat) (final : Char) : Grid :=
  match priv, final, parameters with
  | false, 'H', [row, col] => g.apply (.goto row col)
  | false, 'm', _ => g.select parameters
  | true, 'h', [25] => g.apply .showCursor
  | true, 'l', [25] => g.apply .hideCursor
  | _, _, _ => g

end Grid

/-- A terminal that is getting output, and the cells that have been written. -/
structure Receiver where
  mode : ControlMode
  grid : Grid
  written : List Nat

namespace Receiver

def receive (r : Receiver) (c : Char) : Receiver :=
  match r.mode with
  | .ground =>
      if c = '\x1b' then { r with mode := .escape }
      else if Key.isControl c then r
      else { r with grid := r.grid.print c, written := r.written ++ [r.grid.target] }
  | .escape => { r with mode := if c = '[' then .parameters false [] 0 else .ground }
  | .parameters priv before current =>
      if c.isDigit then { r with mode := .parameters priv before (10 * current + (c.toNat - '0'.toNat)) }
      else if c = ';' then { r with mode := .parameters priv (before ++ [current]) 0 }
      else if c = '?' then { r with mode := .parameters true before current }
      else { r with mode := .ground, grid := r.grid.control priv (before ++ [current]) c }

/-- A number is read digit by digit. -/
theorem receive_number (g : Grid) (written : List Nat) (priv : Bool) (before : List Nat) (n : Nat) :
    (Nat.toDigits 10 n).foldl receive ⟨.parameters priv before 0, g, written⟩ =
      ⟨.parameters priv before n, g, written⟩ := by
  have reading (digits : List Char) (current : Nat) (all : ∀ c ∈ digits, c.isDigit = true) :
      digits.foldl receive ⟨.parameters priv before current, g, written⟩ =
        ⟨.parameters priv before (Nat.ofDigitChars 10 digits current), g, written⟩ := by
    induction digits generalizing current with
    | nil => rfl
    | cons c rest ih =>
        rw [List.forall_mem_cons] at all
        rw [List.foldl_cons, Nat.ofDigitChars_cons, ← ih _ all.2]
        simp [receive, all.1]
  rw [reading _ _ fun c member => Nat.isDigit_of_mem_toDigits (by decide) (by decide) member,
    Nat.ofDigitChars_ten_toDigits]

end Receiver

/-- What a terminal makes of a text. -/
def Grid.replay (g : Grid) (text : String) : Receiver :=
  text.toList.foldl Receiver.receive ⟨.ground, g, []⟩

/-- The cells that an operation writes. -/
def Grid.writes (g : Grid) : TerminalOp → List Nat
  | .print _ => [g.target]
  | _ => []

/-- The cells that operations write in turn. -/
def Grid.writesAll (g : Grid) : List TerminalOp → List Nat
  | [] => []
  | op :: rest => g.writes op ++ (g.apply op).writesAll rest

/-- The operation prints nothing that would be taken for a command. -/
def TerminalOp.IsPlain : TerminalOp → Prop
  | .print c => Key.isControl c = false
  | _ => True

theorem TerminalOp.toList_render (ops : List TerminalOp) :
    (render ops).toList = ops.flatMap fun op => op.text.toList := by
  have onto (out : String) : (ops.foldl (fun out op => out ++ op.text) out).toList =
      out.toList ++ ops.flatMap fun op => op.text.toList := by
    induction ops generalizing out with
    | nil => simp
    | cons op rest ih => simp [ih]
  exact onto ""

namespace Receiver

theorem receive_op (g : Grid) (written : List Nat) {op : TerminalOp} (plain : op.IsPlain) :
    op.text.toList.foldl receive ⟨.ground, g, written⟩ =
      ⟨.ground, g.apply op.resolved, written ++ g.writes op⟩ := by
  cases op with
  | goto row col =>
      simp [TerminalOp.text, TerminalOp.introducer, receive, receive_number, Grid.control, Grid.writes,
        TerminalOp.resolved]
  | colors fg bg =>
      simp [TerminalOp.text, TerminalOp.introducer, Color.pairParameters, Color.parameters, receive,
        receive_number, Grid.control, Grid.select, Grid.writes, Grid.apply, TerminalOp.resolved,
        Color.resolved]
  | print c =>
      have printable : Key.isControl c = false := plain
      have other : c ≠ '\x1b' := by
        rintro rfl
        exact absurd printable (by decide)
      simp [TerminalOp.text, receive, other, printable, Grid.apply, Grid.writes, TerminalOp.resolved]
  | showCursor | hideCursor =>
      simp [TerminalOp.text, TerminalOp.introducer, receive, Grid.control, Grid.writes,
        TerminalOp.resolved]

theorem receive_render (g : Grid) (written : List Nat) (ops : List TerminalOp)
    (plain : ∀ op ∈ ops, op.IsPlain) :
    (TerminalOp.render ops).toList.foldl receive ⟨.ground, g, written⟩ =
      ⟨.ground, g.applyAll (ops.map TerminalOp.resolved),
        written ++ g.writesAll (ops.map TerminalOp.resolved)⟩ := by
  rw [TerminalOp.toList_render]
  induction ops generalizing g written with
  | nil => simp [Grid.applyAll, Grid.writesAll]
  | cons op rest ih =>
      rw [List.forall_mem_cons] at plain
      rw [List.flatMap_cons, List.foldl_append, receive_op g written plain.1, ih _ _ plain.2]
      cases op <;> simp [Grid.applyAll, Grid.writesAll, Grid.writes, TerminalOp.resolved]

end Receiver

namespace Grid

def resolved (g : Grid) : Grid :=
  { g with cells := g.cells.map Cell.resolved, fg := g.fg.resolved, bg := g.bg.resolved }

@[simp] theorem width_resolved (g : Grid) : g.resolved.width = g.width := rfl

@[simp] theorem height_resolved (g : Grid) : g.resolved.height = g.height := rfl

theorem getElem?_resolved (g : Grid) (i : Nat) :
    g.resolved.cells[i]? = g.cells[i]?.map Cell.resolved :=
  Vector.getElem?_map

@[simp] theorem place_resolved (g : Grid) : g.resolved.place = g.place := rfl

@[simp] theorem target_resolved (g : Grid) : g.resolved.target = g.target := rfl

theorem resolved_apply (g : Grid) (op : TerminalOp) :
    (g.apply op).resolved = g.resolved.apply op.resolved := by
  cases op with
  | print c =>
      change (g.print c).resolved = g.resolved.print c
      rw [print_eq, print_eq, place_resolved, target_resolved]
      by_cases inside : g.place.1 ≤ g.height <;>
        simp [resolved, inside, Vector.map_setIfInBounds, Cell.resolved]
  | goto | colors | showCursor | hideCursor => rfl

theorem resolved_applyAll (g : Grid) (ops : List TerminalOp) :
    (g.applyAll ops).resolved = g.resolved.applyAll (ops.map TerminalOp.resolved) := by
  induction ops generalizing g with
  | nil => rfl
  | cons op rest ih => exact (ih (g.apply op)).trans (by rw [resolved_apply]; rfl)

@[simp] theorem writesAll_resolved (g : Grid) (ops : List TerminalOp) :
    g.resolved.writesAll (ops.map TerminalOp.resolved) = g.writesAll ops := by
  induction ops generalizing g with
  | nil => rfl
  | cons op rest ih =>
      rw [List.map_cons, writesAll, writesAll, ← resolved_apply, ih]
      cases op <;> rfl

/-- Replaying the text of operations shows what the operations show and writes what they write. -/
theorem replay_render (g : Grid) {ops : List TerminalOp} (plain : ∀ op ∈ ops, op.IsPlain) :
    (g.replay (TerminalOp.render ops)).grid.resolved = (g.applyAll ops).resolved ∧
      (g.replay (TerminalOp.render ops)).written = g.writesAll ops := by
  have twice : (ops.map TerminalOp.resolved).map TerminalOp.resolved = ops.map TerminalOp.resolved := by
    simp [Function.comp_def]
  rw [replay, Receiver.receive_render g [] ops plain]
  constructor
  · rw [resolved_applyAll, resolved_applyAll, twice]
  · rw [List.nil_append, ← writesAll_resolved g (ops.map TerminalOp.resolved), twice,
      writesAll_resolved]

end Grid

end PocketBasic
