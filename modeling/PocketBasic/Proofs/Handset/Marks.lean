import PocketBasic.Handset

/-! # What a write marks

Whoever keeps a copy of the screen copies the dirty area and nothing else. So every pixel that an
operation of the handset changes has to be dirty afterwards, and what was dirty has to stay so until
someone takes the area. The area itself is a bounding box and may cover more than was written.
-/

namespace PocketBasic

namespace PixelRect

variable {a b : PixelRect} {x y : Nat}

theorem contains_iff :
    a.contains x y = true ↔ (a.left ≤ x ∧ x < a.right) ∧ a.top ≤ y ∧ y < a.bottom := by
  simp only [contains, Bool.and_eq_true, decide_eq_true_eq, and_assoc]

theorem isEmpty_iff : a.isEmpty = true ↔ a.right ≤ a.left ∨ a.bottom ≤ a.top := by
  simp only [isEmpty, width, height, Bool.or_eq_true, decide_eq_true_eq, Nat.sub_eq_zero_iff_le]

theorem not_isEmpty_of_contains (inside : a.contains x y = true) : a.isEmpty = false := by
  have bounds := contains_iff.mp inside
  refine Bool.eq_false_iff.mpr fun empty => ?_
  have crossed := isEmpty_iff.mp empty
  omega

theorem contains_union (inside : a.contains x y = true ∨ b.contains x y = true) :
    (a.union b).contains x y = true := by
  unfold union
  split
  · rename_i empty
    cases inside with
    | inl left =>
        rw [not_isEmpty_of_contains left] at empty
        cases empty
    | inr right => exact right
  · split
    · rename_i empty
      cases inside with
      | inl left => exact left
      | inr right =>
          rw [not_isEmpty_of_contains right] at empty
          cases empty
    · simp only [contains_iff] at inside ⊢
      omega

theorem contains_fullScreen : fullScreen.contains x y = true ↔ x < screenWidth ∧ y < screenHeight := by
  simp only [contains_iff, fullScreen, Nat.zero_le, true_and]

end PixelRect

namespace Handset

/-- The pixel is on the screen and in the dirty area. -/
def IsDirty (h : Handset) (x y : Nat) : Prop :=
  (x < screenWidth ∧ y < screenHeight) ∧ ∃ area, h.dirty = some area ∧ area.contains x y = true

/-- The second handset comes from the first by writes that were all marked. -/
structure Marks (h other : Handset) : Prop where
  grows : ∀ {x y}, h.IsDirty x y → other.IsDirty x y
  marked : ∀ {x y}, other.pixel x y ≠ h.pixel x y → other.IsDirty x y

theorem on_screen_of_changed {h other : Handset} {x y : Nat} (changed : other.pixel x y ≠ h.pixel x y) :
    x < screenWidth ∧ y < screenHeight := by
  by_cases hy : y < screenHeight
  · by_cases hx : x < screenWidth
    · exact ⟨hx, hy⟩
    · simp only [pixel, Bitmap.pixel, dif_pos hy, dif_neg hx, ne_eq, not_true] at changed
  · simp only [pixel, Bitmap.pixel, dif_neg hy, ne_eq, not_true] at changed

@[simp] theorem bitmap_markDirty (h : Handset) (area : PixelRect) :
    (h.markDirty area).bitmap = h.bitmap := by
  unfold markDirty
  split <;> rfl

theorem isDirty_markDirty {h : Handset} {area : PixelRect} {x y : Nat}
    (dirty : h.IsDirty x y ∨ (x < screenWidth ∧ y < screenHeight) ∧ area.contains x y = true) :
    (h.markDirty area).IsDirty x y := by
  unfold markDirty
  split
  · rename_i empty
    cases dirty with
    | inl before => exact before
    | inr inside =>
        rw [PixelRect.not_isEmpty_of_contains inside.2] at empty
        cases empty
  · cases dirty with
    | inl before =>
        obtain ⟨screen, old, taken, inside⟩ := before
        refine ⟨screen, old.union area, ?_, PixelRect.contains_union (.inl inside)⟩
        simp only [taken]
    | inr inside =>
        obtain ⟨screen, inside⟩ := inside
        refine ⟨screen, _, rfl, ?_⟩
        cases h.dirty with
        | none => exact inside
        | some old => exact PixelRect.contains_union (.inr inside)

theorem pixel_write (h : Handset) (area : PixelRect) (f : Bool → Bool) (x y : Nat) :
    (h.write area f).pixel x y =
      if area.contains x y ∧ x < screenWidth ∧ y < screenHeight then f (h.pixel x y)
      else h.pixel x y := by
  simp only [write, pixel, bitmap_markDirty]
  exact h.bitmap.pixel_mapArea area (fun _ _ lit => f lit) x y

namespace Marks

variable {h other third : Handset}

/-- What is not on the screen does not count. -/
theorem of_same (bitmap : other.bitmap = h.bitmap) (dirty : other.dirty = h.dirty) : Marks h other := by
  refine ⟨fun before => ?_, fun changed => ?_⟩
  · rw [IsDirty, dirty]
    exact before
  · simp only [pixel, bitmap, ne_eq, not_true] at changed

theorem refl (h : Handset) : Marks h h := of_same rfl rfl

theorem trans (first : Marks h other) (second : Marks other third) : Marks h third := by
  refine ⟨fun before => second.grows (first.grows before), fun {x y} changed => ?_⟩
  by_cases late : third.pixel x y = other.pixel x y
  · rw [late] at changed
    exact second.grows (first.marked changed)
  · exact second.marked late

theorem write (h : Handset) (area : PixelRect) (f : Bool → Bool) : Marks h (h.write area f) := by
  refine ⟨fun before => isDirty_markDirty (.inl before), fun {x y} changed => ?_⟩
  have screen := on_screen_of_changed changed
  rw [pixel_write] at changed
  split at changed
  · rename_i written
    exact isDirty_markDirty (.inr ⟨screen, written.1⟩)
  · exact absurd rfl changed

theorem hideCaret (h : Handset) : Marks h h.hideCaret := by
  unfold Handset.hideCaret
  split
  · exact trans (write h h.caretRect _) (of_same rfl rfl)
  · exact refl h

theorem blink (h : Handset) : Marks h h.blink :=
  trans (write h h.caretRect _) (of_same rfl rfl)

/-- Whatever is done to the whole screen is marked, even if nothing of the old picture is left. -/
theorem fullScreen (h other : Handset) : Marks h (other.markDirty .fullScreen) := by
  have all {x y : Nat} (screen : x < screenWidth ∧ y < screenHeight) :
      (other.markDirty .fullScreen).IsDirty x y :=
    isDirty_markDirty (.inr ⟨screen, PixelRect.contains_fullScreen.mpr screen⟩)
  exact ⟨fun before => all before.1, fun changed => all (on_screen_of_changed changed)⟩

theorem clearScreen (h : Handset) : Marks h h.clearScreen := fullScreen h _

theorem restart (h : Handset) : Marks h h.restart := fullScreen h _

theorem fill (h : Handset) (area : PixelRect) : Marks h (h.fill area) :=
  trans (hideCaret h) (write _ area _)

theorem clear (h : Handset) (area : PixelRect) : Marks h (h.clear area) :=
  trans (hideCaret h) (write _ area _)

theorem invert (h : Handset) (area : PixelRect) : Marks h (h.invert area) :=
  trans (hideCaret h) (write _ area _)

theorem setCursor (h : Handset) (x y : Nat) : Marks h (h.setCursor x y) :=
  trans (hideCaret h) (of_same rfl rfl)

/-- A key that is taken hides the caret. -/
theorem takeKey (h : Handset) : Marks h h.takeKey.2 := by
  unfold Handset.takeKey
  split
  · exact refl h
  · rename_i key rest _
    have shortened : Marks h { h with buffer := rest } := of_same rfl rfl
    exact trans shortened (hideCaret _)

theorem keyDown (h : Handset) (key : UInt8) : Marks h (h.keyDown key) := of_same rfl rfl

theorem keyUp (h : Handset) (key : UInt8) : Marks h (h.keyUp key) := of_same rfl rfl

end Marks

end Handset

end PocketBasic
