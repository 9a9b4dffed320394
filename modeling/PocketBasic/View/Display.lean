import PocketBasic.Engine
import PocketBasic.Handset.Bitmap
import PocketBasic.Screen
import PocketBasic.Settings

/-! # Display of the handset

A copy of the device's pixels, drawn as terminal cells. Only areas the device reports as written
are copied again. At scale 1 a cell shows two by four pixels as dots, at any other scale one by two
pixels as the colors of its upper and lower half.
-/

namespace PocketBasic

/-- The copied pixels and how they are drawn. -/
structure Display where
  scale : Nat
  foreground : Color
  background : Color
  pixels : Bitmap

namespace Display

/-- A display that has copied nothing. -/
def ofSettings (s : SimulatorSettings) : Display :=
  { scale := s.pixelScale, foreground := .ofHex s.foreground, background := .ofHex s.background,
    pixels := .blank }

/-- Columns and rows of pixels in one cell. -/
def cellPixels (d : Display) : Nat × Nat :=
  if d.scale = 1 then (2, 4) else (1, 2)

/-- Columns and rows of cells. -/
def size (d : Display) : Nat × Nat :=
  (screenWidth / d.cellPixels.1, screenHeight / d.cellPixels.2)

/-- Copies an area of a device. -/
def copy {σ : Type} [Device σ] (d : Display) (device : σ) (area : PixelRect) : Display :=
  { d with pixels := d.pixels.mapArea area fun x y _ => Device.pixel device x y }

/-- The weight of each dot of a cell in the code of its character: column, row and weight. -/
def dotWeights : List (Nat × Nat × Nat) :=
  [(0, 0, 0x01), (0, 1, 0x02), (0, 2, 0x04), (0, 3, 0x40), (1, 0, 0x08), (1, 1, 0x10),
    (1, 2, 0x20), (1, 3, 0x80)]

/-- The dots of a cell as a number. -/
def dots (d : Display) (col row : Nat) : Nat :=
  dotWeights.foldr (fun (dx, dy, weight) sum =>
    (if d.pixels.pixel (col * 2 + dx) (row * 4 + dy) then weight else 0) + sum) 0

/-- The cell at a column and row, which count from zero. -/
def cell (d : Display) (col row : Nat) : Cell :=
  if d.scale = 1 then ⟨Char.ofNat (0x2800 + d.dots col row), d.foreground, d.background⟩
  else
    let color (lit : Bool) : Color := if lit then d.foreground else d.background
    ⟨'▀', color (d.pixels.pixel col (row * 2)), color (d.pixels.pixel col (row * 2 + 1))⟩

/-- Draws as much of the display as fits. -/
def draw (d : Display) (s : Screen) (bounds : CellRect) : Screen :=
  let (width, height) := d.size
  (List.range (min height bounds.height)).foldl (fun s row =>
    (List.range (min width bounds.width)).foldl (fun s col =>
      let c := d.cell col row
      s.set (bounds.y + row) (bounds.x + col) c.ch c.fg c.bg) s) s

end Display

end PocketBasic
