import PocketBasic.Proofs.Screen.Painted
import PocketBasic.Proofs.Screen.Traced
import PocketBasic.View.TextField

/-! # The cursor of a text field

Keys and clicks leave the cursor in the text, and in view. Text that is inserted all at once takes the cursor along and
leaves the view where it was, so a long one takes the cursor out of it. Of the cells that are drawn the one with
the cursor is in other colors.
-/

namespace PocketBasic.TextField

/-- The cursor is in the text. -/
def Within (f : TextField) : Prop := f.cursor ≤ f.text.length

/-- The cursor is in the text, and not in front of the view. -/
structure Sound (f : TextField) : Prop where
  within : f.Within
  behind : f.scroll ≤ f.cursor

/-- The cursor is in the part of the text that a field of such a width shows. -/
def InView (f : TextField) (width : Nat) : Prop := f.scroll ≤ f.cursor ∧ f.cursor < f.scroll + width

/-- The field, drawn into a rectangle of the screen, has the colors of the cursor at a place. -/
def ShowsCursor (f : TextField) (s : Screen) (rect : CellRect) (place : Nat × Nat) : Prop :=
  ∃ ch, (f.draw s rect).get? place.1 place.2 = some ⟨ch, .cyan, .black⟩

variable {f edited : TextField} {input : Input} {rect : CellRect} {width : Nat} {s : Screen} {text : List Char}

/-! ## Keys and clicks -/

theorem within_edit (within : f.Within) (done : f.edit? input = some edited) : edited.Within := by
  unfold Within at within ⊢
  cases input with
  | char c =>
      cases done
      simp only [insertChar]
      rw [List.length_insertIdx_of_le_length within]
      exact Nat.succ_le_succ within
  | backspace =>
      cases done
      unfold backspace
      split
      · exact within
      · rw [List.length_eraseIdx_of_lt (by omega)]
        exact Nat.sub_le_sub_right within 1
  | delete =>
      cases done
      simp only [delete, List.length_eraseIdx]
      split <;> omega
  | cursorLeft =>
      cases done
      exact Nat.le_trans (Nat.sub_le _ _) within
  | cursorRight =>
      cases done
      exact Nat.min_le_right _ _
  | home =>
      cases done
      exact Nat.zero_le _
  | «end» =>
      cases done
      exact Nat.le_refl _
  | _ => cases done

theorem cursor_showCursor (f : TextField) (width : Nat) : (f.showCursor width).cursor = f.cursor := by
  unfold showCursor
  split
  · rfl
  · split
    · rfl
    · split <;> rfl

theorem within_showCursor : (f.showCursor width).Within ↔ f.Within := by
  rw [Within, text_showCursor, cursor_showCursor, Within]

theorem inView_showCursor (f : TextField) (room : 0 < width) : (f.showCursor width).InView width := by
  unfold showCursor InView
  rw [if_neg (Nat.ne_of_gt room)]
  split
  · exact ⟨Nat.le_refl _, Nat.lt_add_of_pos_right room⟩
  · split
    · dsimp only
      omega
    · omega

/-- A click into a field moves the cursor to a place in view, as far as there is text. -/
theorem cursor_click (f : TextField) (input : Input) (rect : CellRect) :
    (f.click input rect).2 = f ∨
      ∃ i, i < rect.width ∧ (f.click input rect).2 = { f with cursor := min (f.scroll + i) f.text.length } := by
  unfold click
  split
  · rename_i row col
    split
    · rename_i inside
      simp only [CellRect.contains, Bool.and_eq_true, decide_eq_true_eq] at inside
      exact .inr ⟨col - rect.x, by omega, rfl⟩
    · exact .inl rfl
  · exact .inl rfl

/-- What an event makes of a field: nothing, an edit with the cursor brought into view, or a click. -/
theorem handle_cases (f : TextField) (input : Input) (rect : CellRect) :
    (f.handle input rect).2 = f ∨
      (∃ edited, f.edit? input = some edited ∧ (f.handle input rect).2 = edited.showCursor rect.width) ∨
      ∃ i, i < rect.width ∧ (f.handle input rect).2 = { f with cursor := min (f.scroll + i) f.text.length } := by
  have clicked := cursor_click f input rect
  unfold handle
  split
  · split
    · exact .inl rfl
    · split
      · rename_i edited done
        exact .inr (.inl ⟨edited, done, rfl⟩)
      · exact clicked.imp_right .inr
  · exact clicked.imp_right .inr

theorem Within.handle (within : f.Within) (input : Input) (rect : CellRect) : (f.handle input rect).2.Within := by
  obtain same | ⟨edited, done, same⟩ | ⟨i, -, same⟩ := handle_cases f input rect <;> rw [same]
  · exact within
  · exact within_showCursor.mpr (within_edit within done)
  · exact Nat.min_le_right _ _

theorem Sound.handle (sound : f.Sound) (room : 0 < rect.width) (input : Input) : (f.handle input rect).2.Sound := by
  refine ⟨sound.within.handle input rect, ?_⟩
  obtain same | ⟨edited, done, same⟩ | ⟨i, -, same⟩ := handle_cases f input rect <;> rw [same]
  · exact sound.behind
  · exact (inView_showCursor edited room).1
  · exact Nat.le_min.mpr ⟨Nat.le_add_right _ _, Nat.le_trans sound.behind sound.within⟩

/-- An event leaves the cursor in view. -/
theorem InView.handle (seen : f.InView rect.width) (sound : f.Sound) (input : Input) :
    (f.handle input rect).2.InView rect.width := by
  have room : 0 < rect.width := by
    unfold InView at seen
    omega
  obtain same | ⟨edited, done, same⟩ | ⟨i, inside, same⟩ := handle_cases f input rect
  · rw [same]
    exact seen
  · rw [same]
    exact inView_showCursor edited room
  · refine ⟨(sound.handle room input).behind, ?_⟩
    rw [same]
    exact Nat.lt_of_le_of_lt (Nat.min_le_left _ _) (Nat.add_lt_add_left inside _)

/-! ## Text that is inserted -/

/-- What of a text is inserted. -/
def inserted (text : List Char) : List Char := text.filter fun c => c ≠ '\r' ∧ c ≠ '\n'

theorem Within.insertText (within : f.Within) (text : List Char) : (f.insertText text).Within := by
  unfold Within at within
  simp only [Within, TextField.insertText, List.length_append, List.length_take, List.length_drop]
  omega

theorem Sound.insertText (sound : f.Sound) (text : List Char) : (f.insertText text).Sound :=
  ⟨sound.within.insertText text, Nat.le_trans sound.behind (Nat.le_add_right _ _)⟩

theorem inView_insertText_iff (sound : f.Sound) (text : List Char) :
    (f.insertText text).InView width ↔ f.cursor + (inserted text).length < f.scroll + width := by
  have behind := (sound.insertText text).behind
  exact and_iff_right behind

/-! ## Drawing -/

/-- Draws the cell at an index of the view. -/
def drawCell (f : TextField) (rect : CellRect) (s : Screen) (i : Nat) : Screen :=
  s.set rect.y (rect.x + i) (f.charAt (f.scroll + i))
    (if f.focused && f.scroll + i = f.cursor then .cyan else .black)
    (if f.focused && f.scroll + i = f.cursor then .black else .cyan)

theorem draw_eq (row : rect.height ≠ 0) : f.draw s rect = (List.range rect.width).foldl (f.drawCell rect) s := by
  rw [draw, if_neg row]
  congr 1
  funext s i
  unfold drawCell
  by_cases here : (f.focused && decide (f.scroll + i = f.cursor)) = true <;> simp only [here] <;> rfl

/-- The cell in view at a place. -/
def cellAt (f : TextField) (rect : CellRect) (_ col : Nat) : Cell :=
  let index := f.scroll + (col - rect.x)
  ⟨f.charAt index, if f.focused && index = f.cursor then .cyan else .black,
    if f.focused && index = f.cursor then .black else .cyan⟩

/-- The cells in view. -/
def picture (f : TextField) (rect : CellRect) : Picture :=
  .block [rect.y] (List.range' rect.x rect.width) (f.cellAt rect)

theorem painted_draw (row : rect.height ≠ 0) : Screen.Painted (f.picture rect) s (f.draw s rect) := by
  have painted := Screen.Painted.block (s := s) [rect.y] (List.range' rect.x rect.width) (f.cellAt rect)
  simp only [List.range'_eq_map_range, List.foldl_map, List.foldl_cons, List.foldl_nil] at painted
  have cells : f.drawCell rect = fun s i => s.set rect.y (rect.x + i) (f.cellAt rect rect.y (rect.x + i)).ch
      (f.cellAt rect rect.y (rect.x + i)).fg (f.cellAt rect rect.y (rect.x + i)).bg := by
    funext s i
    simp [drawCell, cellAt]
  rwa [draw_eq row, picture, List.range'_eq_map_range, cells]

/-- Each cell in view is drawn once, and the one with the cursor in its colors. -/
theorem get?_draw {i : Nat} (row : rect.height ≠ 0) (inside : i < rect.width)
    (there : s.Contains rect.y (rect.x + i)) :
    (f.draw s rect).get? rect.y (rect.x + i) = some ⟨f.charAt (f.scroll + i),
      if f.focused && f.scroll + i = f.cursor then .cyan else .black,
      if f.focused && f.scroll + i = f.cursor then .black else .cyan⟩ := by
  obtain ⟨old, before⟩ := Screen.exists_get? there
  have viewed : rect.y ∈ [rect.y] ∧ rect.x + i ∈ List.range' rect.x rect.width := by
    simp only [List.mem_singleton, List.mem_range'_1, true_and]
    omega
  rw [(painted_draw row).cells, before, picture, Picture.block, if_pos viewed]
  simp [cellAt]

/-- The place that a view gives to the terminal's cursor is that of the cursor in the field only if the view of the text
    has not moved, or the cursor is in its last cell. -/
theorem showsCursor_iff (focused : f.focused = true) (room : 0 < rect.width) (row : rect.height ≠ 0)
    (there : s.Contains rect.y (rect.x + min f.cursor (rect.width - 1))) :
    f.ShowsCursor s rect (rect.y, rect.x + min f.cursor (rect.width - 1)) ↔
      f.InView rect.width ∧ (f.scroll = 0 ∨ f.cursor + 1 = f.scroll + rect.width) := by
  have inside : min f.cursor (rect.width - 1) < rect.width := by omega
  have shown : f.ShowsCursor s rect (rect.y, rect.x + min f.cursor (rect.width - 1)) ↔
      f.scroll + min f.cursor (rect.width - 1) = f.cursor := by
    unfold ShowsCursor
    rw [get?_draw row inside there, focused]
    by_cases here : f.scroll + min f.cursor (rect.width - 1) = f.cursor <;> simp [here]
  rw [shown]
  unfold InView
  omega

end PocketBasic.TextField
