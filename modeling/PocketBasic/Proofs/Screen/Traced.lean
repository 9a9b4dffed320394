import Mathlib.Data.List.InsertIdx
import PocketBasic.Proofs.Screen.Redraw
import PocketBasic.Proofs.Text.Traced
import PocketBasic.View.Bars
import PocketBasic.View.Display
import PocketBasic.View.Keypad

/-! # Control characters on a screen

A cell holds what was drawn into it, whatever that is: nothing on the way takes control characters out. So what
is drawn with traced texts has only traced cells, and a flush prints nothing else.
-/

namespace PocketBasic

variable {given : List Char}

/-- A control character in a cell is one of the given characters. -/
def Screen.Traced (given : List Char) (s : Screen) : Prop :=
  ∀ i cell, s.cell? i = some cell → Text.Traced given [cell.ch]

theorem Text.traced_singleton {c : Char} (plain : Key.isControl c = false) : Text.Traced given [c] := by
  simp [plain]

theorem Text.traced_blank : Text.Traced given [' '] := traced_singleton rfl

namespace Screen

namespace Traced

variable {s : Screen} (traced : s.Traced given) {row col : Nat} {fg bg : Color} {ch : Char}

include traced

theorem of_back {other : Screen} (same : ∀ i, other.cell? i = s.cell? i) : other.Traced given :=
  fun i cell drawn => traced i cell ((same i).symm.trans drawn)

theorem set (drawn : Text.Traced given [ch]) : (s.set row col ch fg bg).Traced given := by
  unfold Screen.set
  split
  · intro j cell entry
    dsimp only [cell?] at entry
    rw [Vector.getElem?_setIfInBounds] at entry
    split at entry
    · split at entry <;> cases entry
      exact drawn
    · exact traced j cell entry
  · exact traced

theorem foldl {α : Type} {f : Screen → α → Screen} {items : List α}
    (step : ∀ (s : Screen) a, a ∈ items → s.Traced given → (f s a).Traced given) :
    (items.foldl f s).Traced given := by
  induction items generalizing s with
  | nil => exact traced
  | cons a rest ih =>
      exact ih (step s a List.mem_cons_self traced) fun s b member => step s b (List.mem_cons_of_mem a member)

theorem fill {width height : Nat} (drawn : Text.Traced given [ch]) :
    (s.fill row col width height ch fg bg).Traced given :=
  traced.foldl fun _ _ _ traced => traced.foldl fun _ _ _ traced => traced.set drawn

theorem writeChars {text : List Char} (written : Text.Traced given text) :
    (s.writeChars row col fg bg text).Traced given := by
  induction text generalizing s col with
  | nil => exact traced
  | cons c rest ih =>
      obtain ⟨first, rest⟩ := Text.traced_cons.mp written
      unfold Screen.writeChars
      split
      · exact ih (traced.set (Text.traced_cons.mpr ⟨first, Text.traced_nil⟩)) rest
      · exact traced

theorem write {text : String} (written : Text.Traced given text.toList) :
    (s.write row col text fg bg).Traced given := traced.writeChars written

omit traced in
theorem clear (s : Screen) : (s.clear fg bg).Traced given := by
  intro i cell drawn
  cases Vector.eq_of_mem_replicate (Vector.mem_of_getElem? drawn)
  exact Text.traced_singleton rfl

theorem box {width height : Nat} : (s.box row col width height fg bg).Traced given := by
  unfold Screen.box
  split
  · exact traced
  · refine ((((((((traced.fill ?_).fill ?_).fill ?_).fill ?_).fill ?_).set ?_).set ?_).set ?_).set ?_
    all_goals exact Text.traced_singleton (by decide)

theorem setCursor : (s.setCursor row col).Traced given := traced.of_back fun _ => rfl

theorem setCursorVisible (visible : Bool) : (s.setCursorVisible visible).Traced given := traced.of_back fun _ => rfl

end Traced

/-- Only cells are printed. -/
theorem exists_of_mem_changes {width : Nat} {pairs : List (Cell × Option Cell)} {pen : Pen} {i : Nat} {c : Char}
    (printed : .print c ∈ changes width pen i pairs) : ∃ pair ∈ pairs, pair.1.ch = c := by
  induction pairs generalizing pen i with
  | nil => cases printed
  | cons pair rest ih =>
      unfold changes at printed
      split at printed
      · exact (ih printed).imp fun _ found => ⟨List.mem_cons_of_mem _ found.1, found.2⟩
      · rcases List.mem_append.mp printed with here | later
        · have same : c = pair.1.ch := by
            unfold cellOps at here
            split at here <;> split at here <;> simpa using here
          exact ⟨pair, List.mem_cons_self, same.symm⟩
        · exact (ih later).imp fun _ found => ⟨List.mem_cons_of_mem _ found.1, found.2⟩

theorem exists_of_mem_flush {s : Screen} {c : Char} (printed : .print c ∈ s.flush.1) :
    ∃ i cell, s.cell? i = some cell ∧ cell.ch = c := by
  have cells : .print c ∈ changes s.width ⟨none, none⟩ 0 s.pairs := by
    rcases List.mem_append.mp printed with cells | cursor
    · exact cells
    · unfold cursorOps at cursor
      split at cursor <;> simp at cursor
  obtain ⟨pair, member, same⟩ := exists_of_mem_changes cells
  obtain ⟨i, entry⟩ := List.mem_iff_getElem?.mp member
  exact ⟨i, pair.1, (getElem?_pairs.mp entry).1, same⟩

theorem print_mem_changes {width : Nat} {pairs : List (Cell × Option Cell)} {pen : Pen} {i : Nat} {cell : Cell}
    {known : Option Cell} (member : (cell, known) ∈ pairs) (stale : known ≠ some cell) :
    .print cell.ch ∈ changes width pen i pairs := by
  induction pairs generalizing pen i with
  | nil => cases member
  | cons pair rest ih =>
      unfold changes
      rcases List.mem_cons.mp member with rfl | later
      · rw [if_neg stale]
        exact List.mem_append_left _ (List.mem_append_right _ List.mem_cons_self)
      · split
        · exact ih later
        · exact List.mem_append_right _ (ih later)

/-- A cell that the terminal does not show yet is printed. -/
theorem print_mem_flush {s : Screen} {i : Nat} {cell : Cell} (drawn : s.cell? i = some cell)
    (stale : s.known? i ≠ some cell) : .print cell.ch ∈ s.flush.1 := by
  obtain ⟨inside, _⟩ := Vector.getElem?_eq_some_iff.mp drawn
  have shown : s.front[i]? = some s.front[i] := Vector.getElem?_eq_getElem inside
  have member : (cell, s.front[i]) ∈ s.pairs := List.mem_of_getElem? (getElem?_pairs.mpr ⟨drawn, shown⟩)
  refine List.mem_append_left _ (print_mem_changes member fun known => stale ?_)
  rw [known?, shown, known]
  rfl

end Screen

/-- What is no print is a control sequence, whose parameters are written without control characters. -/
theorem TerminalOp.print_or_sequence (op : TerminalOp) :
    (∃ c, op = .print c) ∨ ∃ parameters, op.text = introducer ++ parameters ∧ Text.Traced [] parameters.toList := by
  have color (c : Color) (layer : Nat) : Text.Traced [] (c.parameters layer).toList :=
    ((((((Text.traced_toString_nat layer).before (by decide)).append (Text.traced_toString_nat _)).before
      (by decide)).append (Text.traced_toString_nat _)).before (by decide)).append (Text.traced_toString_nat _)
  cases op with
  | print c => exact .inl ⟨c, rfl⟩
  | goto row col =>
      refine .inr ⟨toString row ++ ";" ++ toString col ++ "H", ?_, ?_⟩
      · simp only [text, String.append_assoc]
      · exact (((Text.traced_toString_nat row).before (by decide)).append (Text.traced_toString_nat col)).before
          (by decide)
  | colors fg bg =>
      refine .inr ⟨Color.pairParameters fg bg ++ "m", ?_, ?_⟩
      · simp only [text, String.append_assoc]
      · exact (((color fg 38).before (by decide)).append (color bg 48)).before (by decide)
  | showCursor => exact .inr ⟨_, rfl, Text.traced_of_plain (by decide)⟩
  | hideCursor => exact .inr ⟨_, rfl, Text.traced_of_plain (by decide)⟩

/-! ## Views without texts of their own -/

theorem traced_padNumber (width n : Nat) {pad : Char} (plain : Key.isControl pad = false) :
    Text.Traced given (padNumber width pad n) := by
  rw [padNumber, Text.traced_append]
  exact ⟨Text.traced_replicate _ plain, Text.traced_toDigits 10 n⟩

namespace Toolbar

theorem traced_drawItems {s : Screen} (traced : s.Traced given) {items : List (String × String × Bool)}
    (named : ∀ item ∈ items, Text.Traced given item.1.toList ∧ Text.Traced given item.2.1.toList) (row col : Nat) :
    (drawItems s row col items).Traced given := by
  induction items generalizing s col with
  | nil => exact traced
  | cons item rest ih =>
      rw [List.forall_mem_cons] at named
      exact ih ((traced.write named.1.1).write named.1.2) named.2 _

theorem traced_items (t : Toolbar) (tooltip : Option String) :
    ∀ item ∈ t.items tooltip, Text.Traced given item.1.toList ∧ Text.Traced given item.2.1.toList := by
  have label : Text.isPlain t.start.label.toList = true := by
    cases t.start <;> decide
  simp only [items, List.forall_mem_cons]
  refine ⟨⟨?_, Text.traced_of_plain label⟩, ⟨?_, ?_⟩, ⟨?_, ?_⟩, ⟨?_, ?_⟩, ⟨?_, ?_⟩, ⟨?_, ?_⟩, nofun⟩
  all_goals exact Text.traced_of_plain (by decide)

theorem traced_draw (t : Toolbar) {s : Screen} (traced : s.Traced given) {tooltip : Option String}
    (told : ∀ tip, tooltip = some tip → Text.Traced given tip.toList) (bounds : CellRect) :
    (t.draw s tooltip bounds).Traced given := by
  have blanked : (s.fill bounds.y bounds.x bounds.width 1 ' ' .black .lightGray).Traced given :=
    traced.fill Text.traced_blank
  have buttons := traced_drawItems blanked (t.traced_items tooltip) bounds.y (bounds.x + 1)
  unfold draw
  cases tooltip with
  | none => exact buttons
  | some tip => exact buttons.write (told tip rfl)

end Toolbar

namespace StatusLine

theorem traced_draw {s : Screen} (traced : s.Traced given) (state : Lifecycle) {hint : Option String}
    (told : ∀ text, hint = some text → Text.Traced given text.toList) (line : Nat) (bounds : CellRect) :
    (draw s state hint line bounds).Traced given := by
  have words : Text.Traced given (stateText state).toList := by
    cases state <;> exact Text.traced_of_plain (by decide)
  have number : Text.Traced given (padNumber 5 '0' (line + 1) ++ [' ']) :=
    Text.traced_append.mpr ⟨traced_padNumber _ _ rfl, Text.traced_blank⟩
  cases hint with
  | none => exact ((traced.fill Text.traced_blank).write words).writeChars number
  | some text => exact (((traced.fill Text.traced_blank).write words).write (told text rfl)).writeChars number

end StatusLine

namespace Display

/-- Some of the dots weigh no more than all of them. -/
theorem sum_weights_le (weights : List (Nat × Nat × Nat)) (lit : Nat → Nat → Bool) :
    weights.foldr (fun (dx, dy, weight) sum => (if lit dx dy then weight else 0) + sum) 0 ≤
      weights.foldr (fun (_, _, weight) sum => weight + sum) 0 := by
  induction weights with
  | nil => exact Nat.le_refl 0
  | cons first rest ih =>
      obtain ⟨dx, dy, weight⟩ := first
      have lighter : (if lit dx dy then weight else 0) ≤ weight := by
        split
        · exact Nat.le_refl weight
        · exact Nat.zero_le weight
      exact Nat.add_le_add lighter ih

theorem dots_lt (d : Display) (col row : Nat) : d.dots col row < 256 :=
  Nat.lt_succ_of_le (sum_weights_le dotWeights fun dx dy => d.pixels.pixel (col * 2 + dx) (row * 4 + dy))

theorem traced_cell (d : Display) (col row : Nat) : Text.Traced given [(d.cell col row).ch] := by
  have patterns : ∀ n < 256, Key.isControl (Char.ofNat (0x2800 + n)) = false := by decide +kernel
  unfold cell
  split
  · dsimp only
    exact Text.traced_singleton (patterns _ (d.dots_lt col row))
  · exact Text.traced_singleton rfl

theorem traced_draw (d : Display) {s : Screen} (traced : s.Traced given) (bounds : CellRect) :
    (d.draw s bounds).Traced given :=
  traced.foldl fun _ _ _ traced => traced.foldl fun _ _ _ traced => traced.set (d.traced_cell _ _)

end Display

namespace KeypadView

theorem traced_drawButton {s : Screen} (traced : s.Traced given) (row col : Nat) {button : Keypad.Button}
    (named : Text.Traced given button.label.toList) (down : Bool) :
    (drawButton s row col button down).Traced given := by
  refine traced.writeChars ?_
  rw [centerText, Text.traced_append, Text.traced_append]
  exact ⟨⟨Text.traced_replicate _ rfl, named⟩, Text.traced_replicate _ rfl⟩

theorem traced_drawRow {s : Screen} (traced : s.Traced given) (bounds : CellRect) (row : Nat)
    (isDown : UInt8 → Bool) (x : Nat) {buttons : List (Option Keypad.Button)}
    (named : ∀ button, some button ∈ buttons → Text.Traced given button.label.toList) :
    (drawRow s bounds row isDown x buttons).Traced given := by
  induction buttons generalizing s x with
  | nil => exact traced
  | cons button rest ih =>
      have others : ∀ button, some button ∈ rest → Text.Traced given button.label.toList :=
        fun button member => named button (List.mem_cons_of_mem _ member)
      cases button with
      | none => exact ih traced _ others
      | some button =>
          unfold drawRow
          split
          · exact traced
          · exact ih (traced_drawButton traced _ _ (named button List.mem_cons_self) _) _ others

theorem traced_draw (v : KeypadView) {s : Screen} (traced : s.Traced given) (bounds : CellRect)
    (isDown : UInt8 → Bool) : (v.draw s bounds isDown).Traced given := by
  have plain : ∀ row ∈ Keypad.buttons, ∀ button ∈ row, ∀ b ∈ button, Text.isPlain b.label.toList = true := by
    decide
  refine traced.foldl fun s entry member traced => traced_drawRow traced _ _ _ _ fun button inside => ?_
  have row := List.mem_of_mem_take (List.fst_mem_of_mem_zipIdx member)
  exact Text.traced_of_plain (plain _ row _ inside button rfl)

end KeypadView

/-- A text field shows its text and blanks. -/
theorem TextField.traced_draw {f : TextField} (typed : Text.Traced given f.text) {s : Screen}
    (traced : s.Traced given) (bounds : CellRect) : (f.draw s bounds).Traced given := by
  have shown (index : Nat) : Text.Traced given [f.charAt index] := by
    unfold charAt
    cases found : f.text[index]? with
    | none => exact Text.traced_blank
    | some c =>
        refine typed.of_subset fun other member => ?_
        cases List.mem_singleton.mp member
        exact List.mem_of_getElem? found
  unfold draw
  split
  · exact traced
  · exact traced.foldl fun _ _ _ traced => traced.set (shown _)

/-! ## Typing -/

/-- The character that an event types. -/
def Input.typed : Input → List Char
  | .char c => [c]
  | _ => []

namespace TextField

variable {f : TextField}

theorem traced_insertText {text : List Char} (traced : Text.Traced given f.text)
    (inserted : Text.Traced given (text.filter fun c => c ≠ '\r' ∧ c ≠ '\n')) :
    Text.Traced given (f.insertText text).text := by
  unfold insertText
  rw [Text.traced_append, Text.traced_append]
  exact ⟨traced.of_subset (List.take_subset _ _), inserted, traced.of_subset (List.drop_subset _ _)⟩

theorem text_showCursor (f : TextField) (width : Nat) : (f.showCursor width).text = f.text := by
  unfold showCursor
  split
  · rfl
  · split
    · rfl
    · split <;> rfl

theorem text_click (f : TextField) (input : Input) (bounds : CellRect) : (f.click input bounds).2.text = f.text := by
  unfold click
  split
  · split <;> rfl
  · rfl

theorem traced_edit {edited : TextField} {input : Input} (traced : Text.Traced given f.text)
    (typed : Text.Traced given input.typed) (done : f.edit? input = some edited) :
    Text.Traced given edited.text := by
  cases input with
  | char c =>
      cases done
      intro other member
      rcases List.eq_or_mem_of_mem_insertIdx member with rfl | old
      · exact typed other List.mem_cons_self
      · exact traced other old
  | backspace =>
      cases done
      unfold backspace
      split
      · exact traced
      · exact traced.of_subset (List.eraseIdx_subset)
  | delete =>
      cases done
      exact traced.of_subset (List.eraseIdx_subset)
  | cursorLeft | cursorRight | home | «end» =>
      cases done
      exact traced
  | _ => cases done

/-- What an event leaves in a field was there, or was typed. -/
theorem traced_handle {input : Input} (traced : Text.Traced given f.text)
    (typed : Text.Traced given input.typed) (bounds : CellRect) :
    Text.Traced given (f.handle input bounds).2.text := by
  unfold handle
  split
  · split
    · exact traced
    · split
      · rename_i edited done
        rw [text_showCursor]
        exact traced_edit traced typed done
      · rw [text_click]
        exact traced
  · rw [text_click]
    exact traced

end TextField

end PocketBasic
