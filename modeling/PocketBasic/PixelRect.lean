/-! # Rectangles of device pixels

A rectangle runs from `left` and `top` up to, and not including, `right` and `bottom`. Nothing
forces the corners into order or onto the screen: a rectangle with its corners crossed is empty,
and `ofSize` is the one constructor that clips.
-/

namespace PocketBasic

/-- Width of the device screen in pixels. -/
def screenWidth : Nat := 160

/-- Height of the device screen in pixels. -/
def screenHeight : Nat := 80

/-- A rectangle of device pixels, exclusive of `right` and `bottom`. -/
structure PixelRect where
  left : Nat
  top : Nat
  right : Nat
  bottom : Nat
  deriving Repr, DecidableEq, Inhabited

namespace PixelRect

/-- A rectangle from origin and size, clipped to the device screen. -/
def ofSize (x y width height : Nat) : PixelRect :=
  { left := min x screenWidth, top := min y screenHeight,
    right := min (x + width) screenWidth, bottom := min (y + height) screenHeight }

/-- The whole device screen. -/
def fullScreen : PixelRect := ⟨0, 0, screenWidth, screenHeight⟩

def width (r : PixelRect) : Nat := r.right - r.left

def height (r : PixelRect) : Nat := r.bottom - r.top

/-- The rectangle holds no pixel. -/
def isEmpty (r : PixelRect) : Bool :=
  decide (r.width = 0) || decide (r.height = 0)

/-- The pixel lies in the rectangle. -/
def contains (r : PixelRect) (x y : Nat) : Bool :=
  decide (r.left ≤ x) && decide (x < r.right) && decide (r.top ≤ y) && decide (y < r.bottom)

/-- The smallest rectangle that covers both. An empty rectangle adds nothing. -/
def union (a b : PixelRect) : PixelRect :=
  if a.isEmpty then b
  else if b.isEmpty then a
  else
    { left := min a.left b.left, top := min a.top b.top,
      right := max a.right b.right, bottom := max a.bottom b.bottom }

end PixelRect

end PocketBasic
