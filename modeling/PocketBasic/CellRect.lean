/-! # Rectangles of terminal cells

Rows and columns count from one, as on the terminal.
-/

namespace PocketBasic

/-- A rectangle of terminal cells: its first column and row, and its size. -/
structure CellRect where
  x : Nat
  y : Nat
  width : Nat
  height : Nat
  deriving Repr, DecidableEq, Inhabited

namespace CellRect

/-- The cell lies in the rectangle. -/
def contains (r : CellRect) (row col : Nat) : Bool :=
  decide (r.y ≤ row) && decide (row < r.y + r.height) &&
    (decide (r.x ≤ col) && decide (col < r.x + r.width))

/-- What is left inside a border of `n` cells. -/
def inset (r : CellRect) (n : Nat) : CellRect :=
  { x := r.x + n, y := r.y + n, width := r.width - n * 2, height := r.height - n * 2 }

/-- A rectangle of at most the given size in the middle. -/
def centered (r : CellRect) (width height : Nat) : CellRect :=
  let width := min width r.width
  let height := min height r.height
  { x := r.x + (r.width - width) / 2, y := r.y + (r.height - height) / 2, width, height }

end CellRect

/-- The direction in which rectangles are stacked. -/
inductive Axis where
  | vertical
  | horizontal
  deriving Repr, DecidableEq

/-- The length of one item of a stack. -/
inductive Extent where
  /-- So many cells. -/
  | fixed (cells : Nat)
  /-- A share, by weight, of the cells that the fixed items leave. -/
  | flex (weight : Nat)
  deriving Repr, DecidableEq

namespace Extent

def fixedCells : Extent → Nat
  | .fixed n => n
  | .flex _ => 0

def flexWeight : Extent → Nat
  | .fixed _ => 0
  | .flex w => w

def isFlex : Extent → Bool
  | .fixed _ => false
  | .flex _ => true

/-- The lengths of the items in turn. `offset` cells are taken, `used` of them by shares; every
    length is clipped to what is left, and the last share takes what rounding has left over. -/
def lengths (total space weight offset used : Nat) : List Extent → List Nat
  | [] => []
  | item :: items =>
      let left := total - offset
      let (length, share) :=
        match item with
        | .fixed n => (min n left, 0)
        | .flex w =>
            if !items.any isFlex then (min (space - used) left, 0)
            else if weight = 0 then (0, 0)
            else (min (space * w / weight) left, space * w / weight)
      length :: lengths total space weight (offset + length) (used + share) items

end Extent

namespace CellRect

/-- Places items of the given lengths one behind the other. -/
def stack (bounds : CellRect) (axis : Axis) (offset : Nat) : List Nat → List CellRect
  | [] => []
  | length :: lengths =>
      (match axis with
        | .vertical => ⟨bounds.x, bounds.y + offset, bounds.width, length⟩
        | .horizontal => ⟨bounds.x + offset, bounds.y, length, bounds.height⟩) ::
        stack bounds axis (offset + length) lengths

/-- Splits a rectangle into a stack of items. -/
def split (bounds : CellRect) (axis : Axis) (items : List Extent) : List CellRect :=
  let total := match axis with
    | .vertical => bounds.height
    | .horizontal => bounds.width
  let fixed := (items.map Extent.fixedCells).foldr (· + ·) 0
  let weight := (items.map Extent.flexWeight).foldr (· + ·) 0
  bounds.stack axis 0 (Extent.lengths total (total - fixed) weight 0 0 items)

end CellRect

end PocketBasic
