import Mathlib.Data.Nat.ModEq
import PocketBasic.Proofs.Terminal.Replay

/-! # One flush

A flush leaves out the cells that are shown already, the moves of a cursor that stands right, and the
colors that are set already. That is sound because the pen is never wrong about the terminal: it knows the
cursor only behind a cell that was just written, and not at the start of a row.
-/

namespace PocketBasic

namespace Grid

@[simp] theorem applyAll_cons (g : Grid) (op : TerminalOp) (ops : List TerminalOp) :
    g.applyAll (op :: ops) = (g.apply op).applyAll ops := rfl

theorem applyAll_append (g : Grid) (first second : List TerminalOp) :
    g.applyAll (first ++ second) = (g.applyAll first).applyAll second :=
  List.foldl_append

theorem writesAll_append (g : Grid) (first second : List TerminalOp) :
    g.writesAll (first ++ second) = g.writesAll first ++ (g.applyAll first).writesAll second := by
  induction first generalizing g with
  | nil => rfl
  | cons op rest ih => simp [writesAll, ih]

/-- The cursor stands on a cell, and the colors are those to print there. -/
def poised (g : Grid) (i : Nat) (cell : Cell) : Grid :=
  { g with row := i / g.width + 1, col := i % g.width + 1, fg := cell.fg, bg := cell.bg }

theorem place_poised {g : Grid} {i : Nat} (wide : 0 < g.width) (cell : Cell) :
    (g.poised i cell).place = (i / g.width + 1, i % g.width + 1) :=
  if_neg (Nat.not_lt.mpr (Nat.mod_lt i wide))

theorem target_poised {g : Grid} {i : Nat} (wide : 0 < g.width) (cell : Cell) :
    (g.poised i cell).target = i := by
  rw [target, place_poised wide]
  exact Nat.div_add_mod' i g.width

/-- The character goes into the cell, and the cursor moves on in the row. -/
theorem print_poised {g : Grid} {i : Nat} (inside : i < g.width * g.height) (cell : Cell) :
    (g.poised i cell).print cell.ch =
      { g with
        cells := g.cells.setIfInBounds i cell
        row := i / g.width + 1, col := i % g.width + 2, fg := cell.fg, bg := cell.bg } := by
  have wide : 0 < g.width := Nat.pos_of_mul_pos_right (Nat.zero_lt_of_lt inside)
  have below : (g.poised i cell).place.1 ≤ (g.poised i cell).height := by
    rw [place_poised wide]
    exact Nat.div_lt_of_lt_mul inside
  rw [print_eq, if_pos below, target_poised wide, place_poised wide]
  rfl

end Grid

namespace Screen

/-- The pen is right about the terminal. At the start of a row it does not say where the cursor is. -/
structure Pen.Knows (pen : Pen) (g : Grid) : Prop where
  next : ∀ i, pen.next = some i → i % g.width ≠ 0 →
    g.row = i / g.width + 1 ∧ g.col = i % g.width + 1
  colors : ∀ fg bg, pen.colors = some (fg, bg) → g.fg = fg ∧ g.bg = bg

theorem Pen.knows_nothing (g : Grid) : Pen.Knows ⟨none, none⟩ g := by
  constructor <;> (intros; contradiction)

variable {g : Grid} {pen : Pen} {i : Nat}

/-- What is left out before a cell would have changed nothing. -/
theorem applyAll_cellOps (knows : pen.Knows g) (cell : Cell) :
    g.applyAll (cellOps g.width pen i cell) = (g.poised i cell).print cell.ch ∧
      g.writesAll (cellOps g.width pen i cell) = [(g.poised i cell).target] := by
  have moved : g.applyAll
      (if pen.next ≠ some i ∨ i % g.width = 0 then [.goto (i / g.width + 1) (i % g.width + 1)]
        else []) = { g with row := i / g.width + 1, col := i % g.width + 1 } := by
    split
    · rfl
    · rename_i stands
      rw [not_or, not_not] at stands
      obtain ⟨row, col⟩ := knows.next i stands.1 stands.2
      rw [← row, ← col]
      rfl
  have colored : ({ g with row := i / g.width + 1, col := i % g.width + 1 } : Grid).applyAll
      (if pen.colors ≠ some (cell.fg, cell.bg) then [.colors cell.fg cell.bg] else []) =
        g.poised i cell := by
    split
    · rfl
    · rename_i set
      obtain ⟨fg, bg⟩ := knows.colors cell.fg cell.bg (not_not.mp set)
      rw [Grid.poised, ← fg, ← bg]
      rfl
  constructor
  · rw [cellOps, Grid.applyAll_append, Grid.applyAll_append, moved, colored]
    rfl
  · rw [cellOps, Grid.writesAll_append, Grid.writesAll_append, Grid.applyAll_append, moved, colored]
    split <;> split <;> rfl

/-- Behind a cell that was printed the pen knows the cursor and the colors. -/
theorem Pen.knows_printed (inside : i < g.width * g.height) (cell : Cell) :
    Pen.Knows ⟨some (i + 1), some (cell.fg, cell.bg)⟩ ((g.poised i cell).print cell.ch) := by
  rw [Grid.print_poised inside]
  constructor
  · rintro _ ⟨⟩ within
    have row : (i + 1) / g.width = i / g.width :=
      Nat.succ_div_of_not_dvd fun whole => within (Nat.mod_eq_zero_of_dvd whole)
    have before := Nat.div_add_mod i g.width
    have after := Nat.div_add_mod (i + 1) g.width
    rw [row] at after
    exact ⟨by rw [row], by dsimp only; omega⟩
  · rintro _ _ ⟨⟩
    exact ⟨rfl, rfl⟩

/-- The indices, from the first one on, at which something else is to be shown. -/
def stale (i : Nat) (pairs : List (Cell × Option Cell)) : List Nat :=
  ((pairs.zipIdx i).filter fun p => p.1.2 ≠ some p.1.1).map Prod.snd

/-- The cells from an index on are shown afterwards, those before it are as they were. -/
structure Redrawn (i : Nat) (pairs : List (Cell × Option Cell)) (g after : Grid) : Prop where
  width : after.width = g.width
  height : after.height = g.height
  before : ∀ j < i, after.cells[j]? = g.cells[j]?
  shown : ∀ k cell known, pairs[k]? = some (cell, known) →
    after.cells[i + k]? = if known = some cell then g.cells[i + k]? else some cell

variable {after : Grid} {rest : List (Cell × Option Cell)}

theorem Redrawn.skipped (redrawn : Redrawn (i + 1) rest g after) (cell : Cell) :
    Redrawn i ((cell, some cell) :: rest) g after := by
  refine ⟨redrawn.width, redrawn.height, fun j early => redrawn.before j (by omega), ?_⟩
  rintro (_ | k) other known entry
  · obtain ⟨rfl, rfl⟩ := Prod.mk.inj (Option.some.inj entry)
    simpa using redrawn.before i (Nat.lt_succ_self i)
  · simpa [Nat.add_assoc, Nat.add_comm 1 k] using redrawn.shown k other known entry

theorem Redrawn.printed {cell : Cell} {known : Option Cell} (inside : i < g.width * g.height)
    (stale : known ≠ some cell)
    (redrawn : Redrawn (i + 1) rest ((g.poised i cell).print cell.ch) after) :
    Redrawn i ((cell, known) :: rest) g after := by
  rw [Grid.print_poised inside] at redrawn
  refine ⟨redrawn.width, redrawn.height, fun j early => ?_, ?_⟩
  · rw [redrawn.before j (by omega), Vector.getElem?_setIfInBounds, if_neg (by omega)]
  · rintro (_ | k) other known' entry
    · obtain ⟨rfl, rfl⟩ := Prod.mk.inj (Option.some.inj entry)
      rw [if_neg stale, Nat.add_zero, redrawn.before i (Nat.lt_succ_self i)]
      simp [inside]
    · have later := redrawn.shown k other known' entry
      have elsewhere : (g.cells.setIfInBounds i cell)[i + 1 + k]? = g.cells[i + 1 + k]? := by
        rw [Vector.getElem?_setIfInBounds, if_neg (by omega)]
      simpa [elsewhere, Nat.add_assoc, Nat.add_comm 1 k] using later

/-- The changes show every cell, and only those are written that were not shown. -/
theorem redrawn_changes (pairs : List (Cell × Option Cell)) (knows : pen.Knows g)
    (room : i + pairs.length ≤ g.width * g.height) :
    Redrawn i pairs g (g.applyAll (changes g.width pen i pairs)) ∧
      g.writesAll (changes g.width pen i pairs) = stale i pairs := by
  induction pairs generalizing g pen i with
  | nil => exact ⟨⟨rfl, rfl, fun _ _ => rfl, fun k cell known entry => by cases entry⟩, rfl⟩
  | cons pair rest ih =>
      obtain ⟨cell, known⟩ := pair
      rw [List.length_cons] at room
      have inside : i < g.width * g.height := by omega
      -- A cell that is left out leaves the pen as it was; one that is printed tells it all it knows.
      by_cases same : known = some cell
      · subst same
        have skipped : changes g.width pen i ((cell, some cell) :: rest) =
            changes g.width pen (i + 1) rest := if_pos rfl
        obtain ⟨redrawn, written⟩ := ih (i := i + 1) knows (by omega)
        rw [skipped]
        exact ⟨redrawn.skipped cell, by simpa [stale] using written⟩
      · obtain ⟨printed, writes⟩ := applyAll_cellOps (i := i) knows cell
        have size : ((g.poised i cell).print cell.ch).width = g.width ∧
            ((g.poised i cell).print cell.ch).height = g.height := ⟨rfl, rfl⟩
        obtain ⟨redrawn, written⟩ := ih (i := i + 1) (Pen.knows_printed inside cell) (by
          rw [size.1, size.2]
          omega)
        rw [size.1] at redrawn written
        have changed : changes g.width pen i ((cell, known) :: rest) =
            cellOps g.width pen i cell ++
              changes g.width ⟨some (i + 1), some (cell.fg, cell.bg)⟩ (i + 1) rest := if_neg same
        rw [changed, Grid.applyAll_append, Grid.writesAll_append, printed, writes, written]
        have wide : 0 < g.width := Nat.pos_of_mul_pos_right (Nat.zero_lt_of_lt inside)
        exact ⟨redrawn.printed inside same, by simp [stale, same, Grid.target_poised wide]⟩

end Screen

end PocketBasic
