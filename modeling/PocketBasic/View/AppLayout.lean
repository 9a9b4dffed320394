import PocketBasic.CellRect

/-! # Regions of the application's screen -/

namespace PocketBasic

/-- Where the parts of the application stand. -/
structure AppLayout where
  toolbar : CellRect
  editor : CellRect
  simulator : Option CellRect
  status : CellRect
  deriving Repr, DecidableEq

namespace AppLayout

/-- The toolbar on top, the status line at the bottom, and between them the editor with the
    simulator, if it is open, on its right. -/
def ofSize (width height : Nat) (simulatorWidth : Option Nat) : AppLayout :=
  let rows := CellRect.split ⟨1, 1, width, height⟩ .vertical [.fixed 1, .flex 1, .fixed 1]
  let middle := rows.getD 1 default
  let (editor, simulator) :=
    match simulatorWidth with
    | none => (middle, none)
    | some w =>
        let cols := middle.split .horizontal [.flex 1, .fixed w]
        (cols.getD 0 default, some (cols.getD 1 default))
  { toolbar := rows.getD 0 default, editor, simulator, status := rows.getD 2 default }

end AppLayout

end PocketBasic
