import PocketBasic.PixelRect

/-! # Bitmaps of the device screen -/

namespace PocketBasic

/-- The pixels of a screen, row by row from the top, each row from the left. -/
structure Bitmap where
  rows : Vector (Vector Bool screenWidth) screenHeight

namespace Bitmap

/-- All pixels off. -/
def blank : Bitmap := ⟨.replicate _ (.replicate _ false)⟩

/-- The pixel is lit. Nothing is lit outside the screen. -/
def pixel (b : Bitmap) (x y : Nat) : Bool :=
  if hy : y < screenHeight then
    if hx : x < screenWidth then b.rows[y][x] else false
  else false

/-- Applies `f` to every pixel on the screen that lies in an area; `f` also gets its place. -/
def mapArea (b : Bitmap) (area : PixelRect) (f : Nat → Nat → Bool → Bool) : Bitmap :=
  ⟨b.rows.mapIdx fun y row =>
    if area.top ≤ y ∧ y < area.bottom then
      row.mapIdx fun x lit => if area.left ≤ x ∧ x < area.right then f x y lit else lit
    else row⟩

theorem pixel_mapArea (b : Bitmap) (area : PixelRect) (f : Nat → Nat → Bool → Bool) (x y : Nat) :
    (b.mapArea area f).pixel x y =
      if area.contains x y ∧ x < screenWidth ∧ y < screenHeight then f x y (b.pixel x y)
      else b.pixel x y := by
  unfold pixel mapArea
  by_cases hy : y < screenHeight
  · by_cases hx : x < screenWidth
    · by_cases hrow : area.top ≤ y ∧ y < area.bottom
      · by_cases hcol : area.left ≤ x ∧ x < area.right <;>
          simp [hy, hx, hrow, hcol, PixelRect.contains]
      · have outside : ¬area.contains x y := by
          simp only [PixelRect.contains, Bool.and_eq_true, decide_eq_true_eq]
          exact fun h => hrow ⟨h.1.2, h.2⟩
        simp [hy, hx, hrow, outside]
    · simp [hy, hx]
  · simp [hy]

theorem pixel_blank (x y : Nat) : blank.pixel x y = false := by
  unfold pixel blank
  split
  · split
    · simp
    · rfl
  · rfl

end Bitmap

end PocketBasic
