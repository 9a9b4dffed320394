import PocketBasic.Proofs.Handset.Marks

/-! # The caret and the picture

The caret is drawn by inverting an area of the screen, and comes off by inverting the same area again. What
the program has drawn is the picture without it. Drawing takes the caret off first, so it is drawn on the
picture and the caret is never drawn over.
-/

namespace PocketBasic

/-- A bitmap is what its pixels are. -/
theorem Bitmap.ext_pixel {a b : Bitmap} (same : ∀ x y, a.pixel x y = b.pixel x y) : a = b := by
  obtain ⟨first⟩ := a
  obtain ⟨second⟩ := b
  congr 1
  refine Vector.ext fun y hy => Vector.ext fun x hx => ?_
  simpa [pixel, hx, hy] using same x y

/-- What is inverted twice is as it was. -/
theorem Bitmap.mapArea_not_not (b : Bitmap) (area : PixelRect) :
    (b.mapArea area fun _ _ lit => !lit).mapArea area (fun _ _ lit => !lit) = b := by
  refine ext_pixel fun x y => ?_
  simp only [pixel_mapArea]
  split <;> simp

namespace Handset

variable {h : Handset}

/-- The screen without the caret. -/
def picture (h : Handset) : Bitmap := h.hideCaret.bitmap

/-! ## The caret -/

@[simp] theorem caretShown_markDirty (h : Handset) (area : PixelRect) :
    (h.markDirty area).caretShown = h.caretShown := by
  unfold markDirty
  split <;> rfl

@[simp] theorem caretShown_write (h : Handset) (area : PixelRect) (f : Bool → Bool) :
    (h.write area f).caretShown = h.caretShown := by
  simp only [write, caretShown_markDirty]

@[simp] theorem caretShown_hideCaret (h : Handset) : h.hideCaret.caretShown = false := by
  unfold hideCaret
  split
  · rfl
  · rename_i hidden
    exact Bool.eq_false_iff.mpr hidden

@[simp] theorem caretShown_restart (h : Handset) : h.restart.caretShown = false := by
  simp only [restart, caretShown_markDirty, blank]

@[simp] theorem caretShown_clearScreen (h : Handset) : h.clearScreen.caretShown = false := by
  simp only [clearScreen, caretShown_markDirty]

@[simp] theorem caretShown_fill (h : Handset) (area : PixelRect) : (h.fill area).caretShown = false := by
  simp only [fill, caretShown_write, caretShown_hideCaret]

@[simp] theorem caretShown_clear (h : Handset) (area : PixelRect) : (h.clear area).caretShown = false := by
  simp only [clear, caretShown_write, caretShown_hideCaret]

@[simp] theorem caretShown_invert (h : Handset) (area : PixelRect) :
    (h.invert area).caretShown = false := by
  simp only [invert, caretShown_write, caretShown_hideCaret]

@[simp] theorem caretShown_setCursor (h : Handset) (x y : Nat) : (h.setCursor x y).caretShown = false := by
  simp only [setCursor, caretShown_hideCaret]

/-- The caret goes off with a key that is taken, and only with one. -/
theorem takeKey_cases (h : Handset) :
    (h.takeKey.1 = none ∧ h.takeKey.2 = h) ∨
      ∃ key rest, h.takeKey = (some key, { h with buffer := rest }.hideCaret) := by
  unfold takeKey
  split
  · exact .inl ⟨rfl, rfl⟩
  · exact .inr ⟨_, _, rfl⟩

theorem caretShown_of_takeKey (shown : h.takeKey.2.caretShown = true) : h.caretShown = true := by
  rcases h.takeKey_cases with ⟨_, same⟩ | ⟨key, rest, taken⟩
  · rwa [same] at shown
  · rw [taken, caretShown_hideCaret] at shown
    cases shown

/-! ## The picture -/

theorem picture_of_hidden (hidden : h.caretShown = false) : h.picture = h.bitmap := by
  unfold picture hideCaret
  rw [if_neg (Bool.eq_false_iff.mp hidden)]

@[simp] theorem picture_hideCaret (h : Handset) : h.hideCaret.picture = h.picture :=
  picture_of_hidden h.caretShown_hideCaret

theorem bitmap_write (h : Handset) (area : PixelRect) (f : Bool → Bool) :
    (h.write area f).bitmap = h.bitmap.mapArea area fun _ _ lit => f lit := by
  simp only [write, bitmap_markDirty]

/-- Only the screen, the cursor position and the caret make the picture. -/
theorem picture_congr {other : Handset} (bitmap : other.bitmap = h.bitmap)
    (shown : other.caretShown = h.caretShown) (caret : other.caretRect = h.caretRect) :
    other.picture = h.picture := by
  unfold picture hideCaret
  rw [shown, caret]
  split
  · simp only [bitmap_write, bitmap]
  · exact bitmap

theorem caretRect_write (h : Handset) (area : PixelRect) (f : Bool → Bool) :
    (h.write area f).caretRect = h.caretRect := by
  unfold write markDirty
  split <;> rfl

@[simp] theorem picture_blink (h : Handset) : h.blink.picture = h.picture := by
  by_cases shown : h.caretShown = true
  · -- The second inversion is the one that takes the caret off.
    have hidden : h.blink.caretShown = false := by simp only [blink, shown, Bool.not_true]
    rw [picture_of_hidden hidden]
    unfold picture hideCaret
    rw [if_pos shown]
    rfl
  · have hidden : h.caretShown = false := Bool.eq_false_iff.mpr shown
    have blinked : h.blink.caretShown = true := by simp only [blink, hidden, Bool.not_false]
    rw [picture_of_hidden hidden]
    unfold picture hideCaret
    rw [if_pos blinked]
    change (write _ _ _).bitmap = _
    rw [show h.blink.caretRect = h.caretRect from caretRect_write h _ _, bitmap_write]
    change ((h.write _ _).bitmap.mapArea _ _) = _
    rw [bitmap_write]
    exact h.bitmap.mapArea_not_not _

@[simp] theorem picture_keyDown (h : Handset) (key : UInt8) : (h.keyDown key).picture = h.picture :=
  picture_congr rfl rfl rfl

@[simp] theorem picture_keyUp (h : Handset) (key : UInt8) : (h.keyUp key).picture = h.picture :=
  picture_congr rfl rfl rfl

@[simp] theorem picture_takeDirty (h : Handset) : h.takeDirty.2.picture = h.picture :=
  picture_congr rfl rfl rfl

@[simp] theorem picture_takeKey (h : Handset) : h.takeKey.2.picture = h.picture := by
  rcases h.takeKey_cases with ⟨_, same⟩ | ⟨key, rest, taken⟩
  · rw [same]
  · rw [taken, picture_hideCaret]
    exact picture_congr rfl rfl rfl

end Handset

end PocketBasic
