import PocketBasic.Proofs.Handset.Caret

/-! # Blinking leaves no trace

Someone blinks and hides the caret while a program draws, and neither knows of the other. What the program has
drawn is the same however often that was done and wherever it came: the screens differ by the caret at most,
and by nothing once it is hidden.
-/

namespace PocketBasic.Handset

/-- What can be done to a handset. -/
inductive Operation where
  | clearScreen
  | fill (area : PixelRect)
  | clear (area : PixelRect)
  | invert (area : PixelRect)
  | setCursor (x y : Nat)
  | takeKey
  | keyDown (key : UInt8)
  | keyUp (key : UInt8)
  | takeDirty
  | restart
  | blink
  | hideCaret
  deriving Repr, DecidableEq

/-- The operation only shows or hides the caret. -/
def Operation.isBlinking : Operation → Bool
  | .blink | .hideCaret => true
  | _ => false

def perform (h : Handset) : Operation → Handset
  | .clearScreen => h.clearScreen
  | .fill area => h.fill area
  | .clear area => h.clear area
  | .invert area => h.invert area
  | .setCursor x y => h.setCursor x y
  | .takeKey => h.takeKey.2
  | .keyDown key => h.keyDown key
  | .keyUp key => h.keyUp key
  | .takeDirty => h.takeDirty.2
  | .restart => h.restart
  | .blink => h.blink
  | .hideCaret => h.hideCaret

def performAll (h : Handset) (os : List Operation) : Handset := os.foldl perform h

/-- The handset without its caret and with nothing dirty. -/
def bare (h : Handset) : Handset :=
  { h with bitmap := h.picture, dirty := none, caretShown := false }

variable {h : Handset} {o : Operation}

/-! ## The handset without its caret -/

theorem exists_write (h : Handset) (area : PixelRect) (f : Bool → Bool) :
    ∃ dirty, h.write area f = { h with bitmap := h.bitmap.mapArea area fun _ _ lit => f lit, dirty } := by
  unfold write markDirty
  split
  · exact ⟨_, rfl⟩
  · exact ⟨_, rfl⟩

theorem exists_hideCaret (h : Handset) :
    ∃ dirty, h.hideCaret = { h with bitmap := h.picture, dirty, caretShown := false } := by
  by_cases shown : h.caretShown = true
  · obtain ⟨dirty, written⟩ := h.exists_write h.caretRect (!·)
    refine ⟨dirty, ?_⟩
    rw [picture, hideCaret, if_pos shown, written]
  · have hidden : h.caretShown = false := Bool.eq_false_iff.mpr shown
    refine ⟨h.dirty, ?_⟩
    rw [picture_of_hidden hidden, hideCaret, if_neg shown, ← hidden]

theorem bare_of_hidden (hidden : h.caretShown = false) : h.bare = { h with dirty := none } := by
  rw [bare, picture_of_hidden hidden, ← hidden]

@[simp] theorem bare_bare (h : Handset) : h.bare.bare = h.bare := bare_of_hidden rfl

@[simp] theorem bare_hideCaret (h : Handset) : h.hideCaret.bare = h.bare := by
  obtain ⟨dirty, hidden⟩ := h.exists_hideCaret
  rw [hidden]
  exact bare_of_hidden rfl

@[simp] theorem bare_blink (h : Handset) : h.blink.bare = h.bare := by
  have picture := h.picture_blink
  obtain ⟨dirty, written⟩ := h.exists_write h.caretRect (!·)
  simp only [bare, picture]
  rw [blink, written]

/-! ## What operations do to it -/

/-- What is drawn, is drawn on the picture. -/
theorem bare_draw (h : Handset) (area : PixelRect) (f : Bool → Bool) :
    (h.hideCaret.write area f).bare =
      { h.bare with bitmap := h.bare.bitmap.mapArea area fun _ _ lit => f lit } := by
  obtain ⟨dirty, hidden⟩ := h.exists_hideCaret
  obtain ⟨dirty', written⟩ := h.hideCaret.exists_write area f
  rw [written, hidden]
  exact bare_of_hidden rfl

theorem bare_clearScreen (h : Handset) : h.clearScreen.bare = { h.bare with bitmap := .blank } :=
  bare_of_hidden h.caretShown_clearScreen

theorem bare_setCursor (h : Handset) (x y : Nat) :
    (h.setCursor x y).bare =
      { h.bare with cursorX := min x (screenWidth - 1), cursorY := min y (screenHeight - 1) } := by
  obtain ⟨dirty, hidden⟩ := h.exists_hideCaret
  rw [setCursor, hidden]
  exact bare_of_hidden rfl

theorem bare_takeKey (h : Handset) :
    h.takeKey.2.bare = { h.bare with buffer := h.bare.buffer.tail } := by
  have shorter (rest : List UInt8) : { h with buffer := rest }.picture = h.picture :=
    picture_congr rfl rfl rfl
  unfold takeKey
  cases waiting : h.buffer with
  | nil => simp [bare, waiting]
  | cons key rest =>
      dsimp only
      rw [bare_hideCaret, bare, shorter]
      simp [bare, waiting]

theorem bare_keyDown (h : Handset) (key : UInt8) : (h.keyDown key).bare = h.bare.keyDown key := by
  rw [bare, picture_keyDown]
  rfl

theorem bare_keyUp (h : Handset) (key : UInt8) : (h.keyUp key).bare = h.bare.keyUp key := by
  rw [bare, picture_keyUp]
  rfl

theorem bare_takeDirty (h : Handset) : h.takeDirty.2.bare = h.bare := by
  rw [bare, picture_takeDirty]
  rfl

theorem bare_of_isBlinking (blinking : o.isBlinking = true) : (h.perform o).bare = h.bare := by
  cases o with
  | blink => exact h.bare_blink
  | hideCaret => exact h.bare_hideCaret
  | _ => cases blinking

/-- To any other operation it makes no difference whether the caret is there, but for the caret itself. -/
theorem bare_perform (other : o.isBlinking = false) : (h.perform o).bare = (h.bare.perform o).bare := by
  cases o with
  | blink | hideCaret => cases other
  | restart => rfl
  | clearScreen => simp only [perform, bare_clearScreen, bare_bare]
  | fill area | clear area | invert area => simp only [perform, fill, clear, invert, bare_draw, bare_bare]
  | setCursor x y => simp only [perform, bare_setCursor, bare_bare]
  | takeKey => simp only [perform, bare_takeKey, bare_bare]
  | keyDown key => simp only [perform, bare_keyDown, bare_bare]
  | keyUp key => simp only [perform, bare_keyUp, bare_bare]
  | takeDirty => simp only [perform, bare_takeDirty, bare_bare]

/-- An operation that is inserted or left out makes no difference if it only blinks. -/
theorem bare_performAll {other : Handset} (same : h.bare = other.bare) (os : List Operation) :
    (h.performAll os).bare = (other.performAll (os.filter fun o => !o.isBlinking)).bare := by
  induction os generalizing h other with
  | nil => exact same
  | cons o rest ih =>
      cases blinking : o.isBlinking with
      | true =>
          rw [List.filter_cons_of_neg (by simp [blinking])]
          exact ih ((bare_of_isBlinking blinking).trans same)
      | false =>
          rw [List.filter_cons_of_pos (by simp [blinking])]
          refine ih ?_
          rw [bare_perform blinking, same, ← bare_perform blinking]

/-- Nothing else shows the caret. -/
theorem caretShown_performAll (hidden : h.caretShown = false) {os : List Operation}
    (others : ∀ o ∈ os, o.isBlinking = false) : (h.performAll os).caretShown = false := by
  induction os generalizing h with
  | nil => exact hidden
  | cons o rest ih =>
      obtain ⟨here, later⟩ := List.forall_mem_cons.mp others
      refine ih ?_ later
      cases o with
      | blink | hideCaret => cases here
      | clearScreen | fill | clear | invert | setCursor | restart => simp [perform]
      | takeKey =>
          refine Bool.eq_false_iff.mpr fun shown => ?_
          rw [caretShown_of_takeKey shown] at hidden
          cases hidden
      | keyDown | keyUp | takeDirty => exact hidden

/-! ## The caret on the screen -/

theorem on_screen_of_caretRect {x y : Nat} (inside : h.caretRect.contains x y = true) :
    x < screenWidth ∧ y < screenHeight := by
  simp only [PixelRect.contains_iff, caretRect, PixelRect.ofSize] at inside
  omega

/-- The caret inverts what is under it. -/
theorem pixel_eq_xor (h : Handset) (x y : Nat) :
    h.pixel x y = (h.picture.pixel x y ^^ (h.caretShown && h.caretRect.contains x y)) := by
  cases shown : h.caretShown with
  | false => simp [picture_of_hidden shown, pixel]
  | true =>
      simp only [picture, hideCaret, shown, if_true, bitmap_write, Bitmap.pixel_mapArea, Bool.true_and, pixel]
      by_cases inside : h.caretRect.contains x y = true
      · simp [inside, on_screen_of_caretRect inside]
      · simp [inside]

/-- The screen after any operations is that of the same operations without those that blink and hide the
    caret, but for the caret where it is shown; and once it is hidden nothing else about the handset is
    different but what is dirty. -/
theorem blinking_leaves_no_trace (os : List Operation) :
    let h := blank.performAll os
    let plain := blank.performAll (os.filter fun o => !o.isBlinking)
    (∀ x y, h.pixel x y = (plain.pixel x y ^^ (h.caretShown && h.caretRect.contains x y))) ∧
      { h.hideCaret with dirty := plain.dirty } = plain := by
  intro h plain
  have same : h.bare = plain.bare := bare_performAll rfl os
  have hidden : plain.caretShown = false :=
    caretShown_performAll rfl fun o member => by simpa using (List.mem_filter.mp member).2
  have picture : h.bare.bitmap = plain.bare.bitmap := by rw [same]
  change h.picture = plain.picture at picture
  rw [picture_of_hidden hidden] at picture
  refine ⟨fun x y => ?_, ?_⟩
  · rw [h.pixel_eq_xor, picture]
    rfl
  · rw [bare_of_hidden hidden] at same
    obtain ⟨dirty, uncovered⟩ := h.exists_hideCaret
    rw [uncovered]
    exact congrArg (fun h : Handset => { h with dirty := plain.dirty }) same

end PocketBasic.Handset
