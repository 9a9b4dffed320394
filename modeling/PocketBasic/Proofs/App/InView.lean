import PocketBasic.App
import PocketBasic.Proofs.Screen.Spared

/-! # Lines in view

Every character of a line of the program that is in view gets into its cell, whatever it is, and nothing is drawn
over it while the simulator is closed.
-/

namespace PocketBasic

/-- A character is drawn at a place. -/
def Screen.Shows (s : Screen) (row col : Nat) (c : Char) : Prop := ∃ cell, s.get? row col = some cell ∧ cell.ch = c

variable {s : Screen} {places : Nat → Nat → Prop} {row col : Nat} {c : Char}

theorem Screen.Spares.shows {other : Screen} (spares : Spares places s other) (spared : places row col)
    (shown : s.Shows row col c) : other.Shows row col c := by
  rw [Shows, spares.cells row col spared]
  exact shown

namespace EditorView

open Screen (Spares)

/-- Cells before a line. -/
def gutter (e : Editor) : Nat := if e.lineNumbers then gutterWidth else 0

theorem exists_drawChars_cons (s : Screen) (row col byte : Nat) (marked : Option (Nat × Nat)) (bg : Color)
    (first : Char) (rest : List Char) :
    ∃ fg cellBg, drawChars s row col byte marked bg (first :: rest) =
      drawChars (s.set row col first fg cellBg) row (col + 1) (byte + first.utf8Size) marked bg rest :=
  ⟨_, _, rfl⟩

theorem spares_drawChars {text : List Char} (beside : ∀ c, col ≤ c → ¬places row c) (byte : Nat)
    (marked : Option (Nat × Nat)) (bg : Color) : Spares places s (drawChars s row col byte marked bg text) := by
  induction text generalizing s col byte with
  | nil => exact .refl s
  | cons first rest ih =>
      obtain ⟨fg, cellBg, step⟩ := exists_drawChars_cons s row col byte marked bg first rest
      rw [step]
      exact (Spares.set (beside col (Nat.le_refl col))).trans (ih (fun c further => beside c (by omega)) _)

theorem shows_drawChars {text : List Char} {j : Nat} (char : text[j]? = some c) (left : 1 ≤ col)
    (inside : s.Contains row (col + j)) (byte : Nat) (marked : Option (Nat × Nat)) (bg : Color) :
    (drawChars s row col byte marked bg text).Shows row (col + j) c := by
  induction text generalizing s col byte j with
  | nil => cases char
  | cons first rest ih =>
      obtain ⟨fg, cellBg, step⟩ := exists_drawChars_cons s row col byte marked bg first rest
      have set : Spares Screen.nowhere s (s.set row col first fg cellBg) := .set id
      rw [step]
      cases j with
      | zero =>
          obtain rfl : first = c := Option.some.inj char
          have beside : ∀ c, col + 1 ≤ c → ¬c = col := fun c further => by omega
          have behind : Spares (fun _ c => c = col) (s.set row col first fg cellBg)
              (drawChars (s.set row col first fg cellBg) row (col + 1) (byte + first.utf8Size) marked bg rest) :=
            spares_drawChars beside _ _ _
          exact behind.shows rfl ⟨_, Screen.get?_set inside, rfl⟩
      | succ j =>
          rw [show col + (j + 1) = col + 1 + j by omega] at inside ⊢
          exact ih char (by omega) (set.contains inside) _

variable (e : Editor) (content : CellRect)

/-- The number of a line, and the blanks under it, in its row. -/
def ruled (s : Screen) (row line : Nat) (bg : Color) : Screen :=
  let s :=
    if e.lineNumbers then
      s.writeChars row content.x .lightGray .blue (padNumber 4 ' ' (line + 1) ++ [' '])
    else s
  s.fill row (content.x + gutter e) (content.width - gutter e) 1 ' ' .yellow bg

theorem spares_ruled (beside : ∀ c, ¬places row c) (line : Nat) (bg : Color) :
    Spares places s (ruled e content s row line bg) := by
  have numbered : Spares places s (if e.lineNumbers then
      s.writeChars row content.x .lightGray .blue (padNumber 4 ' ' (line + 1) ++ [' ']) else s) := by
    split
    · exact .writeChars fun c _ => beside c
    · exact .refl s
  exact numbered.trans (.fillRow beside)

theorem drawLine_eq (s : Screen) (row line : Nat) (text : List Char) :
    ∃ bg, drawLine e s content row line text =
      drawChars (ruled e content s row line bg) row (content.x + gutter e) 0 (markedBytes e.mark line) bg
        (text.take (content.width - gutter e)) :=
  ⟨_, rfl⟩

theorem spares_drawLine {text : List Char} (beside : ∀ c, ¬places row c) (line : Nat) :
    Spares places s (drawLine e s content row line text) := by
  obtain ⟨bg, drawn⟩ := drawLine_eq e content s row line text
  rw [drawn]
  exact (spares_ruled e content beside line bg).trans (spares_drawChars (fun c _ => beside c) _ _ _)

theorem shows_drawLine {text : List Char} {j : Nat} (char : text[j]? = some c)
    (within : gutter e + j < content.width) (left : 1 ≤ content.x)
    (inside : s.Contains row (content.x + gutter e + j)) (line : Nat) :
    (drawLine e s content row line text).Shows row (content.x + gutter e + j) c := by
  obtain ⟨bg, drawn⟩ := drawLine_eq e content s row line text
  have ruled : Spares Screen.nowhere s (ruled e content s row line bg) :=
    spares_ruled e content (fun _ => id) line bg
  have taken : (text.take (content.width - gutter e))[j]? = some c := by
    rw [List.getElem?_take_of_lt (by omega)]
    exact char
  rw [drawn]
  exact shows_drawChars taken (by omega) (ruled.contains inside) _ _ _

theorem spares_lines (texts : List (List Char)) (n : Nat) (beside : ∀ r c, content.y + n ≤ r → ¬places r c) :
    Spares places s
      ((texts.zipIdx n).foldl (fun s (text, r) => drawLine e s content (content.y + r) (e.scroll + r) text) s) := by
  refine .foldl fun s entry member => ?_
  have further := List.le_snd_of_mem_zipIdx member
  exact spares_drawLine e content (fun c => beside _ c (by omega)) _

/-- Each line has a row of its own. -/
theorem shows_lines {texts : List (List Char)} {k n j : Nat} {text : List Char} (line : texts[k]? = some text)
    (char : text[j]? = some c) (within : gutter e + j < content.width) (left : 1 ≤ content.x)
    (inside : s.Contains (content.y + (n + k)) (content.x + gutter e + j)) :
    ((texts.zipIdx n).foldl (fun s (text, r) => drawLine e s content (content.y + r) (e.scroll + r) text) s).Shows
      (content.y + (n + k)) (content.x + gutter e + j) c := by
  induction texts generalizing s k n with
  | nil => cases line
  | cons first rest ih =>
      rw [List.zipIdx_cons, List.foldl_cons]
      cases k with
      | zero =>
          obtain rfl : first = text := Option.some.inj line
          have below : ∀ r c, content.y + (n + 1) ≤ r → ¬Screen.inRow (content.y + n) r c := fun r _ further =>
            show r ≠ content.y + n by omega
          exact (spares_lines e content rest (n + 1) below).shows rfl
            (shows_drawLine e content char within left inside _)
      | succ k =>
          have drawn : Spares Screen.nowhere s (drawLine e s content (content.y + n) (e.scroll + n) first) :=
            spares_drawLine e content (fun _ => id) _
          rw [show n + (k + 1) = n + 1 + k by omega] at inside ⊢
          exact ih line (drawn.contains inside)

/-- The message of a mark is in one row. -/
theorem spares_drawMark (x width : Nat) (beside : ∀ c, ¬places row c) :
    Spares places s (match e.mark with
      | some a =>
          s.writeChars row x .white .red
            ((" line " ++ toString (a.span.line + 1) ++ ": " ++ a.message ++ " ").toList.take width)
      | none => s) := by
  split
  · exact .writeChars fun c _ => beside c
  · exact .refl s

/-- The frame, with the name of the file in it. -/
def framed (s : Screen) (bounds : CellRect) : Screen :=
  let s := s.box bounds.y bounds.x bounds.width bounds.height .white .blue
  let title := " " ++ e.name ++ " "
  s.write bounds.y (bounds.x + (bounds.width - Screen.columnsOf title) / 2) title .blue .white

theorem spares_framed (s : Screen) (bounds : CellRect) : Spares Screen.nowhere s (framed e s bounds) :=
  (Spares.of_drawn .box).trans (.writeChars fun _ _ => id)

theorem spares_draw (s : Screen) (bounds : CellRect) : Spares Screen.nowhere s (draw e s bounds) := by
  unfold draw
  split
  · exact .refl s
  · exact ((spares_framed e s bounds).trans (spares_lines e _ _ 0 fun _ _ _ => id)).trans
      (spares_drawMark e _ _ fun _ => id)

/-- The message of a mark is on the frame, below the lines. -/
theorem shows_draw {bounds : CellRect} {k j : Nat} {text : List Char} (line : e.lines[e.scroll + k]? = some text)
    (char : text[j]? = some c) (room : k < rows bounds) (within : gutter e + j < bounds.width - 2)
    (inside : s.Contains (bounds.y + 1 + k) (bounds.x + 1 + gutter e + j)) :
    (draw e s bounds).Shows (bounds.y + 1 + k) (bounds.x + 1 + gutter e + j) c := by
  have viewed : ((e.lines.drop e.scroll).take (bounds.inset 1).height)[k]? = some text := by
    rw [List.getElem?_take_of_lt (show k < (bounds.inset 1).height from room), List.getElem?_drop]
    exact line
  have shown := shows_lines e (bounds.inset 1) viewed char within (Nat.le_add_left 1 bounds.x) (n := 0)
    (s := framed e s bounds)
  rw [Nat.zero_add] at shown
  unfold rows at room
  unfold draw
  rw [if_neg (by omega)]
  have below : ∀ c, ¬Screen.inRow (bounds.y + 1 + k) (bounds.y + bounds.height - 1) c := fun _ =>
    show bounds.y + bounds.height - 1 ≠ bounds.y + 1 + k by omega
  exact (spares_drawMark e _ _ below).shows rfl (shown ((spares_framed e s bounds).contains inside))

end EditorView

namespace Toolbar

open Screen (Spares)

theorem spares_drawItems (s : Screen) (row col : Nat) (items : List (String × String × Bool)) :
    Spares Screen.nowhere s (drawItems s row col items) := by
  induction items generalizing s col with
  | nil => exact .refl s
  | cons item rest ih =>
      exact (Spares.writeChars fun _ _ => id).trans ((Spares.writeChars fun _ _ => id).trans (ih _ _))

theorem spares_draw (t : Toolbar) (s : Screen) (tooltip : Option String) (bounds : CellRect) :
    Spares Screen.nowhere s (t.draw s tooltip bounds) := by
  unfold draw
  cases tooltip with
  | none => exact (Spares.fill fun _ _ _ _ _ _ => id).trans (spares_drawItems _ _ _ _)
  | some tip =>
      exact ((Spares.fill fun _ _ _ _ _ _ => id).trans (spares_drawItems _ _ _ _)).trans (.writeChars fun _ _ => id)

end Toolbar

/-- The status line is one row. -/
theorem StatusLine.spares_draw (s : Screen) (state : Lifecycle) (hint : Option String) (line : Nat)
    {bounds : CellRect} (beside : ∀ c, ¬places bounds.y c) :
    Screen.Spares places s (draw s state hint line bounds) := by
  have blanked : Screen.Spares places s (s.fill bounds.y bounds.x bounds.width 1 ' ' .white .cyan) := .fillRow beside
  unfold draw
  cases hint with
  | none => exact (blanked.trans (.writeChars fun c _ => beside c)).trans (.writeChars fun c _ => beside c)
  | some hint =>
      exact ((blanked.trans (.writeChars fun c _ => beside c)).trans (.writeChars fun c _ => beside c)).trans
        (.writeChars fun c _ => beside c)

namespace App

variable {a : App}

/-- A character of a line of the program that is in view. -/
def InView (a : App) (c : Char) : Prop :=
  ∃ k j text, a.editor.lines[a.editor.scroll + k]? = some text ∧ text[j]? = some c ∧ k < a.editorRows ∧
    EditorView.gutter a.editor + j < a.layout.editor.width - 2

/-- Without a simulator the pane has all rows between the toolbar and the status line. -/
theorem layout_of_closed (closed : a.window = none) :
    a.layout.editor = ⟨1, 1 + min 1 a.screen.height, a.screen.width,
        min (a.screen.height - 2) (a.screen.height - min 1 a.screen.height)⟩ ∧
      a.layout.status.y = a.layout.editor.y + a.layout.editor.height := by
  unfold App.layout
  rw [closed]
  simp [AppLayout.ofSize, CellRect.split, CellRect.stack, Extent.lengths, Extent.isFlex, Extent.fixedCells,
    Nat.add_assoc]

/-- The picture before the pane is drawn. -/
theorem spares_cleared (a : App) (tooltip : Option String) (t : Toolbar) (bounds : CellRect) :
    Screen.Spares Screen.nowhere a.screen
      (t.draw ((a.screen.clear .yellow .blue).setCursorVisible false) tooltip bounds) := by
  have cleared : Screen.Spares Screen.nowhere a.screen ((a.screen.clear .yellow .blue).setCursorVisible false) :=
    ⟨rfl, rfl, fun _ => rfl, fun _ _ => False.elim⟩
  exact cleared.trans (Toolbar.spares_draw _ _ _ _)

theorem spares_draw_of_closed (closed : a.window = none) : Screen.Spares Screen.nowhere a.screen a.draw.screen := by
  unfold App.draw
  rw [closed]
  exact ((a.spares_cleared _ _ _).trans (EditorView.spares_draw _ _ _)).trans
    (StatusLine.spares_draw _ _ _ _ fun _ => id)

/-- What is in view is drawn. -/
theorem shows_draw_of_closed (closed : a.window = none) {c : Char} (viewed : a.InView c) :
    ∃ row col, a.draw.screen.Shows row col c := by
  obtain ⟨k, j, text, line, char, room, within⟩ := viewed
  obtain ⟨editor, status⟩ := layout_of_closed closed
  have height : k < a.layout.editor.height - 2 := room
  have inside : a.screen.Contains (a.layout.editor.y + 1 + k)
      (a.layout.editor.x + 1 + EditorView.gutter a.editor + j) := by
    rw [editor] at height within ⊢
    dsimp only at height within ⊢
    refine ⟨?_, ?_, ?_, ?_⟩ <;> omega
  have above : ∀ c, ¬Screen.inRow (a.layout.editor.y + 1 + k) a.layout.status.y c := fun _ =>
    show a.layout.status.y ≠ a.layout.editor.y + 1 + k by omega
  refine ⟨a.layout.editor.y + 1 + k, a.layout.editor.x + 1 + EditorView.gutter a.editor + j, ?_⟩
  unfold App.draw
  rw [closed]
  exact (StatusLine.spares_draw _ _ _ _ above).shows rfl
    (EditorView.shows_draw a.editor line char room within ((a.spares_cleared _ _ _).contains inside))

end App

end PocketBasic
