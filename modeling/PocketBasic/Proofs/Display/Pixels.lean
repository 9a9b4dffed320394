import PocketBasic.Proofs.Screen.Painted
import PocketBasic.Proofs.Screen.Traced
import PocketBasic.Proofs.Text.Bytes

/-! # Pixels on the screen

Each pixel of the display is part of one cell of the screen, and each cell tells all of its pixels: the dots of a
character are the bits of its code, and where a cell has two pixels only, each has a color of its own. So a picture can
be read off the screen, provided that the colors of lit and unlit pixels differ where only colors tell them apart.
-/

namespace PocketBasic.Display

variable {d : Display} {other : Bitmap} {s : Screen} {bounds : CellRect} {row col x y dx dy : Nat}

/-- The bit of a dot in the code of its character. -/
def dotBit (dx dy : Nat) : Nat := if dy < 3 then dx * 3 + dy else 6 + dx

/-- What a cell tells of one of its pixels, to those who know the scale and the color of lit pixels. -/
def tells (scale : Nat) (foreground : Color) (cell : Cell) (dx dy : Nat) : Bool :=
  if scale = 1 then (cell.ch.toNat - 0x2800).testBit (dotBit dx dy)
  else decide ((if dy = 0 then cell.fg else cell.bg) = foreground)

/-! ## Cells -/

/-- The weights of the dots are different powers of two. -/
theorem testBit_weights (lit : Nat → Nat → Bool) (left : dx < 2) (top : dy < 4) :
    (dotWeights.foldr (fun (dx, dy, weight) sum => (if lit dx dy then weight else 0) + sum) 0).testBit (dotBit dx dy) =
      lit dx dy := by
  have bits : ∀ a b c e f g h i : Bool,
      let n := (if a then 0x01 else 0) + ((if b then 0x02 else 0) + ((if c then 0x04 else 0) +
        ((if e then 0x40 else 0) + ((if f then 0x08 else 0) + ((if g then 0x10 else 0) +
        ((if h then 0x20 else 0) + ((if i then 0x80 else 0) + 0)))))))
      [0, 1, 2, 6, 3, 4, 5, 7].map n.testBit = [a, b, c, e, f, g, h, i] := by decide +kernel
  have read := bits (lit 0 0) (lit 0 1) (lit 0 2) (lit 0 3) (lit 1 0) (lit 1 1) (lit 1 2) (lit 1 3)
  simp only [List.map_cons, List.cons.injEq] at read
  obtain ⟨bit0, bit1, bit2, bit6, bit3, bit4, bit5, bit7, -⟩ := read
  match dx, dy, left, top with
  | 0, 0, _, _ => exact bit0
  | 0, 1, _, _ => exact bit1
  | 0, 2, _, _ => exact bit2
  | 0, 3, _, _ => exact bit6
  | 1, 0, _, _ => exact bit3
  | 1, 1, _, _ => exact bit4
  | 1, 2, _, _ => exact bit5
  | 1, 3, _, _ => exact bit7

theorem toNat_dots (d : Display) (col row : Nat) :
    (Char.ofNat (0x2800 + d.dots col row)).toNat - 0x2800 = d.dots col row := by
  have small := d.dots_lt col row
  have valid : (0x2800 + d.dots col row).isValidChar := .inl (by omega)
  rw [Text.toNat_ofNat valid]
  omega

/-- Each pixel of a cell is told by it. -/
theorem tells_cell (told : d.scale = 1 ∨ d.foreground ≠ d.background) (left : dx < d.cellPixels.1)
    (top : dy < d.cellPixels.2) :
    tells d.scale d.foreground (d.cell col row) dx dy =
      d.pixels.pixel (col * d.cellPixels.1 + dx) (row * d.cellPixels.2 + dy) := by
  unfold cellPixels at left top ⊢
  by_cases dotted : d.scale = 1
  · simp only [dotted, if_true] at left top
    simp only [tells, cell, dotted, if_true, toNat_dots]
    exact testBit_weights (fun dx dy => d.pixels.pixel (col * 2 + dx) (row * 4 + dy)) left top
  · have differ := told.resolve_left dotted
    simp only [dotted, if_false] at left top
    obtain rfl : dx = 0 := by omega
    simp only [tells, cell, dotted, if_false, Nat.mul_one, Nat.add_zero]
    match dy, top with
    | 0, _ => cases d.pixels.pixel col (row * 2) <;> simp [Ne.symm differ]
    | 1, _ => cases d.pixels.pixel col (row * 2 + 1) <;> simp [Ne.symm differ]

/-- Cells are the same exactly if their pixels are. -/
theorem cell_eq_iff (told : d.scale = 1 ∨ d.foreground ≠ d.background) :
    d.cell col row = { d with pixels := other }.cell col row ↔
      ∀ dx dy, dx < d.cellPixels.1 → dy < d.cellPixels.2 →
        d.pixels.pixel (col * d.cellPixels.1 + dx) (row * d.cellPixels.2 + dy) =
          other.pixel (col * d.cellPixels.1 + dx) (row * d.cellPixels.2 + dy) := by
  constructor
  · intro same dx dy left top
    rw [← tells_cell told left top, same]
    exact tells_cell (d := { d with pixels := other }) told left top
  · intro same
    unfold cellPixels at same
    unfold cell
    by_cases dotted : d.scale = 1
    · simp only [dotted, if_true] at same
      have dots : d.dots col row = { d with pixels := other }.dots col row := by
        simp (disch := decide) only [dots, dotWeights, List.foldr_cons, List.foldr_nil, same]
      rw [if_pos dotted, dots]
      exact (if_pos dotted).symm
    · simp only [dotted, if_false, Nat.mul_one] at same ⊢
      have top := same 0 0 (by decide) (by decide)
      have bottom := same 0 1 (by decide) (by decide)
      simp only [Nat.add_zero] at top bottom
      simp only [top, bottom]

/-! ## The picture -/

/-- The cells of the display, as many as fit. -/
def picture (d : Display) (bounds : CellRect) : Picture :=
  .block (List.range' bounds.y (min d.size.2 bounds.height)) (List.range' bounds.x (min d.size.1 bounds.width))
    fun row col => d.cell (col - bounds.x) (row - bounds.y)

theorem painted_draw (d : Display) (s : Screen) (bounds : CellRect) :
    Screen.Painted (d.picture bounds) s (d.draw s bounds) := by
  have painted := Screen.Painted.block (s := s) (List.range' bounds.y (min d.size.2 bounds.height))
    (List.range' bounds.x (min d.size.1 bounds.width)) fun row col => d.cell (col - bounds.x) (row - bounds.y)
  simp only [List.range'_eq_map_range, List.foldl_map, Nat.add_sub_cancel_left] at painted
  simp only [picture, List.range'_eq_map_range]
  exact painted

theorem cellPixels_cases (d : Display) :
    d.cellPixels = (2, 4) ∧ d.size = (80, 20) ∨ d.cellPixels = (1, 2) ∧ d.size = (160, 40) := by
  unfold size cellPixels
  split
  · exact .inl ⟨rfl, rfl⟩
  · exact .inr ⟨rfl, rfl⟩

theorem cellPixels_pos (d : Display) : 0 < d.cellPixels.1 ∧ 0 < d.cellPixels.2 := by
  obtain ⟨pixels, -⟩ | ⟨pixels, -⟩ := d.cellPixels_cases <;> simp [pixels]

/-- A display that has the room it needs shows all its cells, -/
theorem get?_draw (wide : d.size.1 ≤ bounds.width) (high : d.size.2 ≤ bounds.height)
    (shown : ∀ row col, bounds.contains row col = true → s.Contains row col) (across : col < d.size.1)
    (down : row < d.size.2) : (d.draw s bounds).get? (bounds.y + row) (bounds.x + col) = some (d.cell col row) := by
  have inside : bounds.contains (bounds.y + row) (bounds.x + col) = true := by
    rw [CellRect.contains_iff]
    omega
  obtain ⟨old, there⟩ := Screen.exists_get? (shown _ _ inside)
  have drawn : d.picture bounds (bounds.y + row) (bounds.x + col) = some (d.cell col row) := by
    rw [picture, Picture.block, if_pos]
    · simp
    · simp only [List.mem_range'_1]
      omega
  rw [(painted_draw d s bounds).cells, there, drawn]
  rfl

/-- and nothing elsewhere. -/
theorem get?_draw_of_beside
    (beside : ¬(bounds.y ≤ row ∧ row < bounds.y + d.size.2 ∧ bounds.x ≤ col ∧ col < bounds.x + d.size.1)) :
    (d.draw s bounds).get? row col = s.get? row col := by
  have undrawn : d.picture bounds row col = none := by
    rw [picture, Picture.block, if_neg]
    simp only [List.mem_range'_1]
    omega
  rw [(painted_draw d s bounds).cells, undrawn]
  simp

/-- The pixels of a cell are those whose places are divided down to its own. -/
theorem forall_pixel_iff {p : Nat → Nat → Prop} (across : col < d.size.1) (down : row < d.size.2) :
    (∀ dx dy, dx < d.cellPixels.1 → dy < d.cellPixels.2 →
        p (col * d.cellPixels.1 + dx) (row * d.cellPixels.2 + dy)) ↔
      ∀ x y, x < screenWidth → y < screenHeight → y / d.cellPixels.2 = row → x / d.cellPixels.1 = col → p x y := by
  obtain ⟨columns, rows⟩ := d.cellPixels_pos
  constructor
  · intro each x y _ _ inRow inCol
    have placed := each (x % d.cellPixels.1) (y % d.cellPixels.2) (Nat.mod_lt _ columns) (Nat.mod_lt _ rows)
    rwa [← inRow, ← inCol, Nat.div_add_mod', Nat.div_add_mod'] at placed
  · intro each dx dy left top
    unfold screenWidth screenHeight at each
    apply each <;> obtain ⟨pixels, size⟩ | ⟨pixels, size⟩ := d.cellPixels_cases <;>
      simp only [pixels, size] at across down left top ⊢ <;> omega

/-- The picture on the screen determines the pixels, if lit pixels do not look like the others: two displays differ
    in a place exactly if they differ in a pixel that has this place, and the cell in its place tells each pixel. -/
theorem picture_determines_pixels (told : d.scale = 1 ∨ d.foreground ≠ d.background) (wide : d.size.1 ≤ bounds.width)
    (high : d.size.2 ≤ bounds.height) (shown : ∀ row col, bounds.contains row col = true → s.Contains row col) :
    let rowOf (y : Nat) := bounds.y + y / d.cellPixels.2
    let colOf (x : Nat) := bounds.x + x / d.cellPixels.1
    (∀ row col, (d.draw s bounds).get? row col = ({ d with pixels := other }.draw s bounds).get? row col ↔
      ∀ x y, x < screenWidth → y < screenHeight → rowOf y = row → colOf x = col →
        d.pixels.pixel x y = other.pixel x y) ∧
    ∀ x y, x < screenWidth → y < screenHeight →
      ∃ cell, (d.draw s bounds).get? (rowOf y) (colOf x) = some cell ∧
        tells d.scale d.foreground cell (x % d.cellPixels.1) (y % d.cellPixels.2) = d.pixels.pixel x y := by
  intro rowOf colOf
  have within {x y : Nat} (left : x < screenWidth) (top : y < screenHeight) :
      x / d.cellPixels.1 < d.size.1 ∧ y / d.cellPixels.2 < d.size.2 := by
    unfold screenWidth at left
    unfold screenHeight at top
    obtain ⟨pixels, size⟩ | ⟨pixels, size⟩ := d.cellPixels_cases <;> simp only [pixels, size] <;> omega
  constructor
  · intro row col
    by_cases inside : bounds.y ≤ row ∧ row < bounds.y + d.size.2 ∧ bounds.x ≤ col ∧ col < bounds.x + d.size.1
    · obtain ⟨r, rfl⟩ := Nat.exists_eq_add_of_le inside.1
      obtain ⟨c, rfl⟩ := Nat.exists_eq_add_of_le inside.2.2.1
      have across : c < d.size.1 := by omega
      have down : r < d.size.2 := by omega
      rw [get?_draw wide high shown across down,
        get?_draw (d := { d with pixels := other }) wide high shown across down, Option.some.injEq, cell_eq_iff told,
        forall_pixel_iff (p := fun x y => d.pixels.pixel x y = other.pixel x y) across down]
      simp only [rowOf, colOf, Nat.add_left_cancel_iff]
    · rw [get?_draw_of_beside inside, get?_draw_of_beside (d := { d with pixels := other }) inside]
      refine iff_of_true rfl fun x y left top inRow inCol => absurd ?_ inside
      obtain ⟨across, down⟩ := within left top
      subst inRow inCol
      exact ⟨Nat.le_add_right _ _, Nat.add_lt_add_left down _, Nat.le_add_right _ _, Nat.add_lt_add_left across _⟩
  · intro x y left top
    obtain ⟨across, down⟩ := within left top
    obtain ⟨columns, rows⟩ := d.cellPixels_pos
    refine ⟨_, get?_draw wide high shown across down, ?_⟩
    rw [tells_cell told (Nat.mod_lt x columns) (Nat.mod_lt y rows), Nat.div_add_mod', Nat.div_add_mod']

/-- On a terminal of the size of the display, a dot in the middle of a cell is seen, in this cell only. -/
theorem picture_determines_pixels_dot :
    let dark : Display := { scale := 1, foreground := .black, background := .black, pixels := .blank }
    let lit := Bitmap.blank.mapArea ⟨3, 5, 4, 6⟩ fun _ _ _ => true
    let full : CellRect := ⟨1, 1, 80, 20⟩
    (dark.draw (.blank 80 20) full).get? 2 2 ≠ ({ dark with pixels := lit }.draw (.blank 80 20) full).get? 2 2 ∧
      (dark.draw (.blank 80 20) full).get? 2 3 = ({ dark with pixels := lit }.draw (.blank 80 20) full).get? 2 3 := by
  intro dark lit full
  have shown : ∀ row col, full.contains row col = true → (Screen.blank 80 20).Contains row col := by
    intro row col inside
    simp only [full, CellRect.contains_iff] at inside
    simp only [Screen.Contains, Screen.blank]
    omega
  have same := (@picture_determines_pixels dark lit (.blank 80 20) full (.inl rfl) (by decide) (by decide) shown).1
  have pixel (x y : Nat) : lit.pixel x y = decide (x = 3 ∧ y = 5) := by
    simp only [lit, Bitmap.pixel_mapArea, Bitmap.pixel_blank, PixelRect.contains, screenWidth, screenHeight]
    split <;> simp_all <;> omega
  constructor
  · intro alike
    have unlit := (same 2 2).mp alike 3 5 (by decide) (by decide) (by simp [dark, cellPixels, full])
      (by simp [dark, cellPixels, full])
    simp [dark, pixel, Bitmap.pixel_blank] at unlit
  · refine (same 2 3).mpr fun x y _ _ _ inCol => ?_
    simp only [dark, Display.cellPixels, if_true, full] at inCol
    have elsewhere : x ≠ 3 := by omega
    simp [dark, pixel, Bitmap.pixel_blank, elsewhere]

end PocketBasic.Display
