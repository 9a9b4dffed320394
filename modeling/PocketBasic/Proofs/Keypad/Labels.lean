import PocketBasic.Proofs.Screen.Painted
import PocketBasic.View.Keypad

/-! # Buttons that are hit and buttons that are seen

A click counts columns from the left edge of the keypad and goes to the button it comes to. Drawing stops at the first
button that has not all its columns. So what is painted is always part of the button that a click there goes to, but the
columns that are left at the right edge belong to a button that is not seen.
-/

namespace PocketBasic

open Picture

namespace Keypad

theorem length_label_le {row : List (Option Button)} (member : row ∈ buttons) {button : Button}
    (inside : some button ∈ row) : button.label.toList.length ≤ 6 := by
  have short : ∀ row ∈ buttons, ∀ entry ∈ row, ∀ b ∈ entry, b.label.toList.length ≤ 6 := by decide
  exact short row member _ inside button rfl

/-- The first row begins with a gap, and the others are full. -/
theorem isSome_buttonAt?_iff {row col : Nat} :
    (buttonAt? row col).isSome = true ↔ row < 5 ∧ col < 10 ∧ (row = 0 → 6 ≤ col) := by
  have table : ∀ row < 5, ∀ col < 10, (buttonAt? row col).isSome = true ↔ (row = 0 → 6 ≤ col) := by decide
  have full : ∀ row ∈ buttons, row.length = 10 := by decide
  by_cases inside : row < 5 ∧ col < 10
  · simp [table row inside.1 col inside.2, inside]
  · have gone : buttonAt? row col = none := by
      unfold buttonAt?
      cases entry : buttons[row]? with
      | none => rfl
      | some cells =>
          have fifth : row < 5 := (List.getElem?_eq_some_iff.mp entry).1
          have behind : cells[col]? = none := by
            rw [List.getElem?_eq_none_iff, full cells (List.mem_of_getElem? entry)]
            omega
          simp [behind]
    rw [gone, ← and_assoc]
    simp [inside]

end Keypad

namespace KeypadView

open Keypad (Button)

variable {v : KeypadView} {isDown : UInt8 → Bool} {bounds : CellRect} {s : Screen} {row col x : Nat} {button : Button}

/-- The keys that show as pressed. -/
def pressed (v : KeypadView) (isDown : UInt8 → Bool) (code : UInt8) : Bool := v.held = some code || isDown code

/-- The cells of a button, which do not fill its last column. -/
def labelCells (isDown : UInt8 → Bool) (button : Button) : List Cell :=
  (centerText (buttonWidth - 1) button.label.toList).map
    (⟨·, if isDown button.code then .white else .black, if isDown button.code then .black else .lightGray⟩)

/-- The first column of the button at this one. -/
def start (bounds : CellRect) (col : Nat) : Nat := bounds.x + (col - bounds.x) / buttonWidth * buttonWidth

/-- There is room for all columns of the button at this one. -/
def Fits (bounds : CellRect) (col : Nat) : Prop :=
  (col - bounds.x) / buttonWidth * buttonWidth + buttonWidth ≤ bounds.width

instance : Decidable (Fits bounds col) := inferInstanceAs (Decidable (_ ≤ _))

/-- The label of the button at a place is in the area, and is seen on every screen. -/
def Labelled (v : KeypadView) (isDown : UInt8 → Bool) (bounds : CellRect) (row col : Nat) (button : Button) : Prop :=
  ∀ i cell, (labelCells (v.pressed isDown) button)[i]? = some cell →
    bounds.contains row (start bounds col + i) = true ∧
      ∀ s : Screen, s.Contains row (start bounds col + i) →
        (v.draw s bounds isDown).get? row (start bounds col + i) = some cell

/-! ## The picture -/

theorem length_labelCells (short : button.label.toList.length ≤ 6) : (labelCells isDown button).length = 6 := by
  simp only [labelCells, centerText, List.length_map, List.length_append, List.length_replicate, buttonWidth]
  omega

theorem painted_drawButton (down : Bool) (same : down = isDown button.code) :
    Screen.Painted (line row col (labelCells isDown button)) s (drawButton s row col button down) := by
  subst same
  unfold labelCells drawButton
  cases isDown button.code with
  | true => exact .writeChars _
  | false => exact .writeChars _

/-- The labels of a row of buttons, as far as there is room for their buttons. -/
def rowPicture (isDown : UInt8 → Bool) (right row x : Nat) (buttons : List (Option Button)) : Picture := fun r c =>
  if r = row ∧ x ≤ c ∧ x + (c - x) / buttonWidth * buttonWidth + buttonWidth ≤ right then
    (buttons[(c - x) / buttonWidth]?).join.bind fun button => (labelCells isDown button)[(c - x) % buttonWidth]?
  else none

section Row

variable {right r c : Nat} {first : Option Button} {rest : List (Option Button)}

/-- Behind its first button, a row is the row of the other ones. -/
theorem rowPicture_cons (behind : x + buttonWidth ≤ c) :
    rowPicture isDown right row x (first :: rest) r c = rowPicture isDown right row (x + buttonWidth) rest r c := by
  obtain ⟨k, rfl⟩ := Nat.exists_eq_add_of_le behind
  have column : x + buttonWidth + k - x = k + buttonWidth := by omega
  have place : x + (k / buttonWidth + 1) * buttonWidth = x + buttonWidth + k / buttonWidth * buttonWidth := by
    rw [Nat.succ_mul]
    omega
  have later : x ≤ x + buttonWidth + k := by omega
  simp [rowPicture, column, Nat.add_div_right, place, later, show 0 < buttonWidth by decide]

/-- On its first columns, a row shows its first button. -/
theorem rowPicture_of_lt (before : c < x + buttonWidth) :
    rowPicture isDown right row x (first :: rest) r c =
      if r = row ∧ x ≤ c ∧ x + buttonWidth ≤ right then
        first.bind fun button => (labelCells isDown button)[c - x]?
      else none := by
  by_cases inside : x ≤ c
  · have near : c - x < buttonWidth := by omega
    simp [rowPicture, inside, Nat.div_eq_of_lt near, Nat.mod_eq_of_lt near]
  · simp [rowPicture, inside]

end Row

theorem painted_drawRow {buttons : List (Option Button)}
    (short : ∀ button, some button ∈ buttons → button.label.toList.length ≤ 6) :
    Screen.Painted (rowPicture isDown (bounds.x + bounds.width) row x buttons) s
      (drawRow s bounds row isDown x buttons) := by
  induction buttons generalizing s x with
  | nil => exact .of_unseen fun r c _ => by simp [rowPicture]
  | cons first rest ih =>
      have later (s : Screen) :=
        @ih s (x + buttonWidth) fun button member => short button (List.mem_cons_of_mem first member)
      cases first with
      | none =>
          refine (later s).congr fun r c _ => ?_
          by_cases behind : x + buttonWidth ≤ c
          · rw [rowPicture_cons behind]
          · rw [rowPicture_of_lt (Nat.lt_of_not_le behind), rowPicture, if_neg (by omega)]
            simp
      | some button =>
          have length : (labelCells isDown button).length = 6 := length_labelCells (short button List.mem_cons_self)
          unfold drawRow
          split
          · rename_i crowded
            refine .of_unseen fun r c _ => if_neg ?_
            omega
          · rename_i room
            refine ((painted_drawButton _ rfl).trans (later _)).congr fun r c _ => ?_
            by_cases behind : x + buttonWidth ≤ c
            · have ended : (labelCells isDown button)[c - x]? = none := by
                rw [List.getElem?_eq_none_iff, length]
                unfold buttonWidth at behind
                omega
              rw [rowPicture_cons behind]
              simp [onto, line, ended]
            · rw [rowPicture_of_lt (Nat.lt_of_not_le behind), onto, rowPicture, if_neg (by omega)]
              simp [line, Nat.le_of_not_lt room]

/-- What is painted: of each button that has room, as much as has been hit. -/
def picture (v : KeypadView) (isDown : UInt8 → Bool) (bounds : CellRect) : Picture := fun row col =>
  if Fits bounds col then
    (hit? bounds row col).bind fun button => (labelCells (v.pressed isDown) button)[(col - bounds.x) % buttonWidth]?
  else none

/-- Of the places in its row, the picture of a row shows those that are hit and fit. -/
theorem painted_draw (v : KeypadView) (isDown : UInt8 → Bool) (bounds : CellRect) (s : Screen) :
    Screen.Painted (v.picture isDown bounds) s (v.draw s bounds isDown) := by
  have rows : Screen.Painted
      (layers (fun (entry : List (Option Button) × Nat) =>
          rowPicture (v.pressed isDown) (bounds.x + bounds.width) entry.2 bounds.x entry.1)
        ((Keypad.buttons.take bounds.height).zipIdx bounds.y)) s (v.draw s bounds isDown) := by
    refine .foldl fun s entry member => painted_drawRow fun button inside => ?_
    exact Keypad.length_label_le (List.mem_of_mem_take (List.fst_mem_of_mem_zipIdx member)) inside
  refine rows.congr fun r c _ => ?_
  have level (buttons : List (Option Button)) (y r c : Nat) (other : r ≠ y) :
      rowPicture (v.pressed isDown) (bounds.x + bounds.width) y bounds.x buttons r c = none :=
    if_neg fun here => other here.1
  have room : bounds.x + (c - bounds.x) / buttonWidth * buttonWidth + buttonWidth ≤ bounds.x + bounds.width ↔
      Fits bounds c := by
    unfold Fits
    omega
  rw [layers_zipIdx (p := fun buttons y =>
    rowPicture (v.pressed isDown) (bounds.x + bounds.width) y bounds.x buttons) level, List.getElem?_take]
  simp only [rowPicture, true_and, room]
  by_cases fits : Fits bounds c
  · have within : bounds.contains r c = true ↔ bounds.y ≤ r ∧ r - bounds.y < bounds.height ∧ bounds.x ≤ c := by
      unfold Fits buttonWidth at fits
      rw [CellRect.contains_iff]
      omega
    by_cases inside : bounds.y ≤ r ∧ r - bounds.y < bounds.height ∧ bounds.x ≤ c
    · cases entry : Keypad.buttons[r - bounds.y]? <;>
        simp [picture, hit?, Keypad.buttonAt?, within, fits, inside, entry]
    · rw [picture, if_pos fits, hit?, if_neg (mt within.mp inside)]
      by_cases below : bounds.y ≤ r <;> by_cases high : r - bounds.y < bounds.height <;> simp_all
  · simp [picture, fits]

/-! ## Hits -/

theorem hit?_eq_some_iff :
    hit? bounds row col = some button ↔
      (bounds.y ≤ row ∧ row < bounds.y + bounds.height) ∧ (bounds.x ≤ col ∧ col < bounds.x + bounds.width) ∧
        Keypad.buttonAt? (row - bounds.y) ((col - bounds.x) / buttonWidth) = some button := by
  unfold hit?
  split <;> rename_i within <;> rw [CellRect.contains_iff] at within
  · simp [within]
  · exact iff_of_false nofun fun ⟨rows, cols, _⟩ => within ⟨rows.1, rows.2, cols⟩

theorem short_of_hit (hit : hit? bounds row col = some button) : button.label.toList.length ≤ 6 := by
  obtain ⟨-, -, placed⟩ := hit?_eq_some_iff.mp hit
  rw [Keypad.buttonAt?, Option.join_eq_some_iff, Option.bind_eq_some_iff] at placed
  obtain ⟨buttons, entry, inside⟩ := placed
  exact Keypad.length_label_le (List.mem_of_getElem? entry) (List.mem_of_getElem? inside)

/-- The columns of a label are columns of its button. -/
theorem column_of_label {i : Nat} (near : i < 6) :
    (start bounds col + i - bounds.x) / buttonWidth = (col - bounds.x) / buttonWidth ∧
      (start bounds col + i - bounds.x) % buttonWidth = i := by
  unfold start buttonWidth
  omega

theorem fits_label_iff {i : Nat} (near : i < 6) : Fits bounds (start bounds col + i) ↔ Fits bounds col := by
  unfold Fits
  rw [(column_of_label near).1]

/-- The label of a button that is hit is seen exactly if there is room for all its columns. -/
theorem labelled_iff (hit : hit? bounds row col = some button) (shown : 1 ≤ row) :
    v.Labelled isDown bounds row col button ↔ Fits bounds col := by
  obtain ⟨rows, cols, placed⟩ := hit?_eq_some_iff.mp hit
  have length : (labelCells (v.pressed isDown) button).length = 6 := length_labelCells (short_of_hit hit)
  constructor
  · intro labelled
    refine Decidable.byContradiction fun crowded => ?_
    -- the second cell of a label is on the screen even in a keypad that begins left of it
    have second : 1 < (labelCells (v.pressed isDown) button).length := by omega
    obtain ⟨-, seen⟩ := labelled 1 _ (List.getElem?_eq_getElem second)
    have left : 1 ≤ start bounds col + 1 := Nat.le_add_left 1 _
    obtain ⟨s, sameWidth, sameHeight, old, before, other⟩ := Screen.exists_other shown (Nat.le_refl row) left
      (Nat.le_refl _) (labelCells (v.pressed isDown) button)[1]
    have unpainted : v.picture isDown bounds row (start bounds col + 1) = none :=
      if_neg fun fits => crowded ((fits_label_iff (by decide)).mp fits)
    have after := seen s ⟨shown, Nat.le_of_eq sameHeight.symm, left, Nat.le_of_eq sameWidth.symm⟩
    rw [(v.painted_draw isDown bounds s).cells, before, unpainted] at after
    exact other (Option.some.inj after)
  · intro fits i cell entry
    have near : i < 6 := length ▸ (List.getElem?_eq_some_iff.mp entry).1
    obtain ⟨column, rest⟩ := @column_of_label bounds col i near
    have within : bounds.x ≤ start bounds col + i ∧ start bounds col + i < bounds.x + bounds.width := by
      unfold Fits buttonWidth at fits
      unfold start buttonWidth
      omega
    have again : hit? bounds row (start bounds col + i) = some button := by
      rw [hit?_eq_some_iff, column]
      exact ⟨rows, within, placed⟩
    have painted : v.picture isDown bounds row (start bounds col + i) = some cell := by
      rw [picture, if_pos ((fits_label_iff near).mpr fits), again, rest]
      exact entry
    refine ⟨?_, fun s there => ?_⟩
    · rw [CellRect.contains_iff]
      exact ⟨rows.1, rows.2, within⟩
    · obtain ⟨old, before⟩ := Screen.exists_get? there
      rw [(v.painted_draw isDown bounds s).cells, before, painted]
      rfl

/-- All buttons that are hit on a screen have room exactly if the keypad is whole, ends with a button, or has no row
    on the screen with a button at its right edge. -/
theorem all_fit_iff :
    (∀ row col button, 1 ≤ row → hit? bounds row col = some button → Fits bounds col) ↔
      size.1 ≤ bounds.width ∨ buttonWidth ∣ bounds.width ∨ bounds.height = 0 ∨
        bounds.height = 1 ∧ (bounds.width < 6 * buttonWidth ∨ bounds.y = 0) := by
  have whole : size.1 = 70 := rfl
  simp only [Fits, buttonWidth, whole]
  constructor
  · intro fit
    refine Decidable.byContradiction fun cut => ?_
    -- the second row if there is one, at the button that is cut
    have crowded (row : Nat) (shown : 1 ≤ row) (below : bounds.y ≤ row) (above : row < bounds.y + bounds.height)
        (first : row - bounds.y = 0 → 42 ≤ bounds.width) (few : row - bounds.y < 5) : False := by
      have placed : (Keypad.buttonAt? (row - bounds.y) (bounds.width / 7)).isSome = true :=
        Keypad.isSome_buttonAt?_iff.mpr ⟨few, by omega, by omega⟩
      obtain ⟨button, found⟩ := Option.isSome_iff_exists.mp placed
      have edge : (bounds.x + bounds.width / 7 * 7 - bounds.x) / buttonWidth = bounds.width / 7 := by
        unfold buttonWidth
        omega
      have hit : hit? bounds row (bounds.x + bounds.width / 7 * 7) = some button := by
        rw [hit?_eq_some_iff, edge]
        exact ⟨⟨below, above⟩, by omega, found⟩
      have room := fit row _ button shown hit
      omega
    by_cases single : bounds.height = 1
    · exact crowded bounds.y (by omega) (by omega) (by omega) (by omega) (by omega)
    · exact crowded (bounds.y + 1) (by omega) (by omega) (by omega) (by omega) (by omega)
  · intro room row col button shown hit
    obtain ⟨rows, cols, placed⟩ := hit?_eq_some_iff.mp hit
    have table := Keypad.isSome_buttonAt?_iff.mp (Option.isSome_of_eq_some placed)
    unfold buttonWidth at table
    omega

/-- A button that is hit on a screen shows its label if there is room for all its columns, and only then; so the
    buttons that are hit all show their labels exactly if the keypad is whole, ends with a button, or has no row on the
    screen with a button at its right edge. A cell that is painted is part of the button that is hit there. -/
theorem labels_and_hits (v : KeypadView) (isDown : UInt8 → Bool) (bounds : CellRect) :
    (∀ row col button, 1 ≤ row → hit? bounds row col = some button →
      (v.Labelled isDown bounds row col button ↔ Fits bounds col)) ∧
    ((∀ row col button, 1 ≤ row → hit? bounds row col = some button → v.Labelled isDown bounds row col button) ↔
      size.1 ≤ bounds.width ∨ buttonWidth ∣ bounds.width ∨ bounds.height = 0 ∨
        bounds.height = 1 ∧ (bounds.width < 6 * buttonWidth ∨ bounds.y = 0)) ∧
    ∀ (s : Screen) row col, (v.draw s bounds isDown).get? row col ≠ s.get? row col →
      ∃ button, hit? bounds row col = some button ∧ (v.draw s bounds isDown).get? row col =
        (labelCells (v.pressed isDown) button)[(col - bounds.x) % buttonWidth]? := by
  refine ⟨fun row col button shown hit => labelled_iff hit shown, ?_, fun s row col changed => ?_⟩
  · rw [← all_fit_iff]
    constructor
    · intro labelled row col button shown hit
      exact (labelled_iff hit shown).mp (labelled row col button shown hit)
    · intro fit row col button shown hit
      exact (labelled_iff hit shown).mpr (fit row col button shown hit)
  · rw [(v.painted_draw isDown bounds s).cells] at changed ⊢
    cases before : s.get? row col with
    | none => simp [before] at changed
    | some old =>
        cases painted : v.picture isDown bounds row col with
        | none => simp [before, painted] at changed
        | some cell =>
            unfold picture at painted
            split at painted
            · obtain ⟨button, hit, shown⟩ := Option.bind_eq_some_iff.mp painted
              exact ⟨button, hit, shown.symm⟩
            · cases painted

/-- In 40 columns there are five buttons, and the sixth is hit all the same. -/
example : hit? ⟨1, 1, 40, 5⟩ 2 38 = some ⟨"Y 8", 121⟩ ∧ ¬Fits ⟨1, 1, 40, 5⟩ 38 := by decide

end KeypadView

end PocketBasic
