import PocketBasic.Proofs.TextField.Cursor
import PocketBasic.Simulator.Window
import PocketBasic.View.AppLayout

/-! # The frame of a dialog

A dialog stands in the middle of the simulator and is no larger than it. Rows of fields are counted from the top and the
row of buttons from the bottom, so in a low simulator they meet; of the texts, only errors are cut at the frame. Beside
the simulator the screen ends, or the bars of the application begin.
-/

namespace PocketBasic

open Picture

/-- The rectangles have no cell in common. -/
def CellRect.Apart (a b : CellRect) : Prop := ∀ row col, ¬(a.contains row col = true ∧ b.contains row col = true)

/-- Rectangles that can be seen and clicked in a frame, each of them apart from the others. -/
structure CellRect.Separate (bounds : CellRect) (targets : List CellRect) : Prop where
  apart : targets.Pairwise Apart
  inside : ∀ target ∈ targets, ∀ row col, target.contains row col = true → bounds.contains row col = true
  room : ∀ target ∈ targets, ∃ row col, target.contains row col = true

theorem Text.toList_append_ne_nil {first : String} (begun : first.toList ≠ []) (rest : String) :
    (first ++ rest).toList ≠ [] := by
  rw [String.toList_append]
  exact List.append_ne_nil_of_left_ne_nil begun _

theorem EncodingError.message_ne_nil (e : EncodingError) : e.message.toList ≠ [] := by
  cases e with
  | invalidUtf16 => decide
  | invalidChar c => exact Text.toList_append_ne_nil (by decide) _

theorem FieldError.message_ne_nil (e : FieldError) : e.message.toList ≠ [] := by
  cases e with
  | encoding e => exact e.message_ne_nil
  | stringTooLong length => exact Text.toList_append_ne_nil (Text.toList_append_ne_nil (by decide) _) _
  | compile column message =>
      exact Text.toList_append_ne_nil (Text.toList_append_ne_nil (Text.toList_append_ne_nil (by decide) _) _) _
  | _ => decide

theorem AppLayout.simulator_ofSize (width height columns : Nat) :
    (AppLayout.ofSize width height (some columns)).simulator =
      some ⟨1 + (width - columns), 1 + min 1 height, min columns width, height - 2⟩ := by
  simp [AppLayout.ofSize, CellRect.split, CellRect.stack, Extent.lengths, Extent.isFlex, Extent.fixedCells]
  omega

/-! ## Pictures -/

namespace InputDialog

variable {d : InputDialog} {s : Screen} {bounds : CellRect} {width height : Nat}

/-- The cells of a text of the dialog. -/
def written (text : List Char) (fg : Color) : List Cell := text.map (⟨·, fg, .lightGray⟩)

/-- An error goes on top of the field above it, and the field on top of its label. -/
def fieldPicture (rect : CellRect) (slot : Slot) (field : TextField) : Picture :=
  (match slot.error with
    | some e => line (rect.y + 1) rect.x (written (e.message.toList.take rect.width) .red)
    | none => nothing).onto
  ((field.picture rect).onto
    (line (rect.y - 1) rect.x (written slot.label.toList .black)))

def fieldPictures (d : InputDialog) (bounds : CellRect) : Picture :=
  layers (fun ((slot, field), index) => fieldPicture (d.fieldRect bounds index) slot field)
    ((d.session.slots.zip d.fields).zipIdx 0)

def headPicture (d : InputDialog) (bounds : CellRect) : Picture :=
  (match d.session.prompt with
    | some prompt => line (bounds.y + 1) (bounds.x + 2) (written prompt.toList .black)
    | none => nothing).onto
  (line bounds.y (bounds.x + (bounds.width - 7) / 2) (written " Input ".toList .black))

/-- What is drawn into the frame. -/
def picture (d : InputDialog) (bounds : CellRect) : Picture :=
  let ok := okRect bounds
  let cancel := cancelRect bounds
  (line cancel.y (cancel.x + cancel.width + 2) (written "Ctrl+Enter submits".toList .darkGray)).onto
    ((line cancel.y cancel.x (written cancelLabel.toList .black)).onto
      ((line ok.y ok.x (written okLabel.toList .black)).onto
        ((d.fieldPictures bounds).onto (d.headPicture bounds))))

theorem painted_write (s : Screen) (row col : Nat) (text : String) (fg : Color) :
    Screen.Painted (line row col (written text.toList fg)) s (s.write row col text fg .lightGray) :=
  Screen.Painted.writeChars text.toList

theorem painted_drawField (s : Screen) {rect : CellRect} (row : rect.height ≠ 0) (slot : Slot) (field : TextField) :
    Screen.Painted (fieldPicture rect slot field) s (drawField s rect slot field) := by
  have shown := (painted_write s (rect.y - 1) rect.x slot.label .black).trans (field.painted_draw row)
  unfold fieldPicture drawField
  cases slot.error with
  | none => exact shown.trans (.refl _)
  | some e => exact shown.trans (.writeChars _)

theorem painted_draw (d : InputDialog) (s : Screen) (bounds : CellRect) :
    Screen.Painted (d.picture bounds) (s.box bounds.y bounds.x bounds.width bounds.height .black .lightGray)
      (d.draw s bounds) := by
  have head (s : Screen) : Screen.Painted (d.headPicture bounds) s
      (match d.session.prompt with
        | some prompt => (s.write bounds.y (bounds.x + (bounds.width - 7) / 2) " Input " .black .lightGray).write
            (bounds.y + 1) (bounds.x + 2) prompt .black .lightGray
        | none => s.write bounds.y (bounds.x + (bounds.width - 7) / 2) " Input " .black .lightGray) := by
    unfold headPicture
    cases d.session.prompt with
    | none => exact (painted_write ..).trans (.refl _)
    | some prompt => exact (painted_write ..).trans (painted_write ..)
  have fields (s : Screen) : Screen.Painted (d.fieldPictures bounds) s
      (((d.session.slots.zip d.fields).zipIdx 0).foldl
        (fun s ((slot, field), index) => drawField s (d.fieldRect bounds index) slot field) s) :=
    .foldl fun s _ _ => painted_drawField s Nat.one_ne_zero _ _
  have framed := head (s.box bounds.y bounds.x bounds.width bounds.height .black .lightGray)
  have painted := (((framed.trans (fields _)).trans
    (painted_write _ (okRect bounds).y (okRect bounds).x okLabel .black)).trans
    (painted_write _ (cancelRect bounds).y (cancelRect bounds).x cancelLabel .black)).trans
    (painted_write _ (cancelRect bounds).y ((cancelRect bounds).x + (cancelRect bounds).width + 2) "Ctrl+Enter submits"
      .darkGray)
  unfold draw
  cases d.fields[d.focus]? with
  | none => exact painted
  | some f => exact painted.setCursor

/-! ## Places -/

/-- The frame on a screen of such a size. A frame as wide as the simulator ends where the screen does; in a wider
    simulator, there is a column beside it. Below the simulator there is a row. -/
structure Framed (d : InputDialog) (width height : Nat) (area bounds : CellRect) : Prop where
  left : 1 ≤ bounds.x
  top : 2 ≤ height → 2 ≤ bounds.y
  columns : bounds.width = min d.size.1 area.width
  rows : bounds.height = min d.size.2 area.height
  right : area.width ≤ d.size.1 → bounds.x + bounds.width = width + 1
  beside : d.size.1 < area.width → bounds.x + bounds.width ≤ width
  inside : area.height = height - 2
  below : 2 ≤ height → bounds.y + bounds.height ≤ height
  bottom : 2 ≤ height → area.height ≤ d.size.2 → bounds.y + bounds.height = height

theorem framed {columns : Nat} {area : CellRect} (d : InputDialog)
    (placed : (AppLayout.ofSize width height (some columns)).simulator = some area) :
    d.Framed width height area (Window.dialogRect area d) := by
  rw [AppLayout.simulator_ofSize] at placed
  cases placed
  have columns : d.size.1 = 52 := rfl
  constructor <;> simp only [Window.dialogRect, CellRect.centered, columns] <;> omega

/-- The fields and the buttons. -/
def targets (d : InputDialog) (bounds : CellRect) : List CellRect :=
  (List.range d.fields.length).map (d.fieldRect bounds) ++ [okRect bounds, cancelRect bounds]

theorem size_eq (d : InputDialog) : d.size = (52, 4 + d.promptRows + 3 * d.fields.length) := by
  simp only [size, InputDialog.width, fieldRows, Prod.mk.injEq, true_and]
  omega

/-- The fields need their rows, and the buttons must not be in the row of the last field. -/
theorem separate_iff (asked : d.fields ≠ []) :
    bounds.Separate (d.targets bounds) ↔
      20 ≤ bounds.width ∧ d.size.2 ≤ bounds.height + 4 ∧ d.size.2 ≠ bounds.height + 3 := by
  have asks : 0 < d.fields.length := List.length_pos_iff.mpr asked
  have ok : okLabel.length = 6 := rfl
  have cancel : cancelLabel.length = 10 := rfl
  have last : d.fieldRect bounds (d.fields.length - 1) ∈ (List.range d.fields.length).map (d.fieldRect bounds) :=
    List.mem_map_of_mem (List.mem_range.mpr (Nat.sub_lt asks Nat.one_pos))
  rw [size_eq]
  constructor
  · rintro ⟨apart, inside, -⟩
    have corner := inside (cancelRect bounds) (by simp [targets]) (bounds.y + (bounds.height - 2)) (bounds.x + 19)
    have lowest := inside _ (List.mem_append_left _ last) (bounds.y + d.promptRows + 3 * d.fields.length - 1)
      (bounds.x + 2)
    have clash := (List.pairwise_append.mp apart).2.2 _ last (okRect bounds) List.mem_cons_self
      (bounds.y + (bounds.height - 2)) (bounds.x + 2)
    simp only [CellRect.contains_iff, okRect, cancelRect, fieldRect, fieldRows, ok, cancel] at corner lowest clash
    omega
  · rintro ⟨wide, high, clear⟩
    have placed : ∀ target ∈ d.targets bounds, (∃ i < d.fields.length, d.fieldRect bounds i = target) ∨
        okRect bounds = target ∨ cancelRect bounds = target := by
      simp [targets, eq_comm]
    simp only [fieldRect, fieldRows, okRect, cancelRect, ok, cancel] at placed
    refine ⟨List.pairwise_append.mpr ⟨?_, ?_, ?_⟩, ?_, ?_⟩
    · rw [List.pairwise_map]
      refine List.pairwise_lt_range.imp fun {i j} before row col => ?_
      simp only [CellRect.contains_iff, fieldRect, fieldRows]
      omega
    · rw [List.pairwise_pair]
      intro row col
      simp only [CellRect.contains_iff, okRect, cancelRect, ok, cancel]
      omega
    · intro field member button pressed row col
      obtain ⟨i, before, rfl⟩ := List.mem_map.mp member
      rw [List.mem_range] at before
      have level : button.y = bounds.y + (bounds.height - 2) ∧ button.height = 1 := by
        simp only [List.mem_cons, List.not_mem_nil, or_false] at pressed
        obtain rfl | rfl := pressed <;> exact ⟨rfl, rfl⟩
      simp only [CellRect.contains_iff, fieldRect, fieldRows, level]
      omega
    · intro target member row col
      simp only [CellRect.contains_iff]
      obtain ⟨i, before, rfl⟩ | rfl | rfl := placed target member <;> dsimp only <;> omega
    · intro target member
      refine ⟨target.y, target.x, ?_⟩
      simp only [CellRect.contains_iff]
      obtain ⟨i, before, rfl⟩ | rfl | rfl := placed target member <;> dsimp only <;> omega

section Texts

variable {area : CellRect} (framed : d.Framed width height area bounds) (wide : 20 ≤ bounds.width)

include framed wide

/-- A text in the frame sticks out of it if it is too long, unless the screen cuts it there. -/
theorem within_text_iff {row : Nat} {text : List Char} {fg : Color} (above : bounds.y ≤ row)
    (below : row < bounds.y + bounds.height) :
    (line row (bounds.x + 2) (written text fg)).Within width height bounds ↔
      area.width ≤ d.size.1 ∨ text.length ≤ d.size.1 - 2 := by
  obtain ⟨left, top, columns, rows, right, beside, inside, down, -⟩ := framed
  rw [size_eq] at columns right beside rows ⊢
  simp only [within_line_iff, written, List.length_map, CellRect.contains_iff]
  constructor
  · intro within
    have first := within (bounds.x + bounds.width)
    omega
  · intro short c behind before up low first last
    omega

theorem within_headPicture_iff (high : 2 ≤ bounds.height) :
    (d.headPicture bounds).Within width height bounds ↔
      area.width ≤ d.size.1 ∨ ∀ prompt, d.session.prompt = some prompt → prompt.length ≤ d.size.1 - 2 := by
  have title : (line bounds.y (bounds.x + (bounds.width - 7) / 2) (written " Input ".toList .black)).Within width height
      bounds := by
    rw [within_line_iff]
    intro c behind before _ _ _ _
    rw [CellRect.contains_iff]
    have length : (written " Input ".toList .black).length = 7 := rfl
    omega
  rw [headPicture, within_onto_iff, and_iff_left title]
  cases asked : d.session.prompt with
  | none => simp [within_nothing]
  | some prompt =>
      simp only [within_text_iff framed wide (Nat.le_add_right _ 1) (Nat.add_lt_add_left high _), String.length_toList,
        Option.some.injEq, forall_eq']

/-- The row below the last field may be that below the frame. -/
theorem within_fieldPicture_iff {slot : Slot} {field : TextField} {i : Nat} (member : i < d.fields.length)
    (high : d.size.2 ≤ bounds.height + 4) :
    (fieldPicture (d.fieldRect bounds i) slot field).Within width height bounds ↔
      (area.width ≤ d.size.1 ∨ slot.label.length ≤ d.size.1 - 2) ∧
        (slot.error ≠ none → d.size.2 = bounds.height + 4 → i + 1 < d.fields.length) := by
  have rows : d.size.2 = 4 + d.promptRows + 3 * d.fields.length := by rw [size_eq]
  have top : (d.fieldRect bounds i).y = bounds.y + d.promptRows + 3 * i + 2 := by
    simp only [fieldRect, fieldRows]
    omega
  have text : (field.picture (d.fieldRect bounds i)).Within width height bounds := by
    refine within_block fun r here c inside => ?_
    rw [List.mem_singleton, top] at here
    simp only [fieldRect, List.mem_range'_1] at inside
    rw [CellRect.contains_iff]
    omega
  have label : (line ((d.fieldRect bounds i).y - 1) (bounds.x + 2) (written slot.label.toList .black)).Within
      width height bounds ↔ area.width ≤ d.size.1 ∨ slot.label.toList.length ≤ d.size.1 - 2 :=
    within_text_iff framed wide (by omega) (by omega)
  rw [String.length_toList] at label
  rw [fieldPicture, within_onto_iff, within_onto_iff, and_iff_right text, and_comm]
  refine and_congr label ?_
  cases slot.error with
  | none => simp [within_nothing]
  | some e =>
      have shown := List.length_pos_iff.mpr e.message_ne_nil
      obtain ⟨left, -, columns, tall, right, beside, inside, -, bottom⟩ := framed
      rw [size_eq] at columns right beside
      have indent : (d.fieldRect bounds i).x = bounds.x + 2 ∧ (d.fieldRect bounds i).width = bounds.width - 4 :=
        ⟨rfl, rfl⟩
      simp only [within_line_iff, written, List.length_map, List.length_take, CellRect.contains_iff, top, indent]
      constructor
      · intro within _ low
        have first := within (bounds.x + 2)
        omega
      · intro last c _ _ _ _ _ _
        have last := last (Option.some_ne_none e)
        omega

theorem within_fieldPictures_iff (high : d.size.2 ≤ bounds.height + 4) (asked : d.fields ≠ [])
    (paired : d.session.slots.length = d.fields.length) :
    (d.fieldPictures bounds).Within width height bounds ↔
      (area.width ≤ d.size.1 ∨ ∀ slot ∈ d.session.slots, slot.label.length ≤ d.size.1 - 2) ∧
      (d.size.2 = bounds.height + 4 → ∀ slot, d.session.slots.getLast? = some slot → slot.error = none) := by
  have asks : 0 < d.fields.length := List.length_pos_iff.mpr asked
  rw [fieldPictures, within_layers_iff]
  constructor
  · intro each
    have field {i : Nat} {slot : Slot} (entry : d.session.slots[i]? = some slot) :
        ∃ inside : i < d.fields.length,
          (area.width ≤ d.size.1 ∨ slot.label.length ≤ d.size.1 - 2) ∧
            (slot.error ≠ none → d.size.2 = bounds.height + 4 → i + 1 < d.fields.length) := by
      have inside : i < d.fields.length := paired ▸ (List.getElem?_eq_some_iff.mp entry).1
      have member : ((slot, d.fields[i]), i) ∈ (d.session.slots.zip d.fields).zipIdx 0 := by
        rw [List.mk_mem_zipIdx_iff_getElem?, List.getElem?_zip_eq_some]
        exact ⟨entry, List.getElem?_eq_getElem inside⟩
      exact ⟨inside, (within_fieldPicture_iff framed wide inside high).mp (each _ member)⟩
    constructor
    · refine or_iff_not_imp_left.mpr fun wider slot member => ?_
      obtain ⟨i, entry⟩ := List.mem_iff_getElem?.mp member
      obtain ⟨-, label, -⟩ := field entry
      exact label.resolve_left wider
    · intro low slot last
      rw [List.getLast?_eq_getElem?, paired] at last
      obtain ⟨-, -, error⟩ := field last
      refine not_not.mp fun wrong => ?_
      have := error wrong low
      omega
  · rintro ⟨labels, errors⟩ ⟨⟨slot, field⟩, i⟩ member
    rw [List.mk_mem_zipIdx_iff_getElem?, List.getElem?_zip_eq_some] at member
    obtain ⟨entry, text⟩ := member
    have inside := (List.getElem?_eq_some_iff.mp text).1
    refine (within_fieldPicture_iff framed wide inside high).mpr
      ⟨labels.imp_right fun short => short slot (List.mem_of_getElem? entry), fun wrong low => ?_⟩
    refine Nat.lt_of_le_of_ne inside fun same => wrong (errors low slot ?_)
    rw [List.getLast?_eq_getElem?, paired, ← same]
    exact entry

theorem within_picture_iff (high : d.size.2 ≤ bounds.height + 4) (asked : d.fields ≠ [])
    (paired : d.session.slots.length = d.fields.length) :
    (d.picture bounds).Within width height bounds ↔
      (area.width ≤ d.size.1 ∨ (∀ prompt, d.session.prompt = some prompt → prompt.length ≤ d.size.1 - 2) ∧
        ∀ slot ∈ d.session.slots, slot.label.length ≤ d.size.1 - 2) ∧
      (d.size.2 = bounds.height + 4 → ∀ slot, d.session.slots.getLast? = some slot → slot.error = none) := by
  have asks : 0 < d.fields.length := List.length_pos_iff.mpr asked
  have rows : d.size.2 = 4 + d.promptRows + 3 * d.fields.length := by rw [size_eq]
  have lowest {col : Nat} {text : String} {fg : Color} (behind : bounds.x ≤ col)
      (short : area.width ≤ d.size.1 ∨ col + text.length ≤ bounds.x + bounds.width) :
      (line (bounds.y + (bounds.height - 2)) col (written text.toList fg)).Within width height bounds := by
    obtain ⟨left, -, columns, -, right, -, -, -, -⟩ := framed
    rw [within_line_iff]
    intro c behind before _ _ _ last
    simp only [written, List.length_map, String.length_toList] at before
    rw [CellRect.contains_iff]
    omega
  have columns := framed.columns
  rw [size_eq] at columns
  have ok : okLabel.length = 6 := rfl
  have cancel : cancelLabel.length = 10 := rfl
  have hint : "Ctrl+Enter submits".length = 18 := rfl
  rw [picture, within_onto_iff, and_iff_right, within_onto_iff, and_iff_right, within_onto_iff, and_iff_right,
    within_onto_iff, within_headPicture_iff framed wide, within_fieldPictures_iff framed wide high asked paired]
  · tauto
  · omega
  all_goals
    refine lowest ?_ ?_ <;> simp only [size_eq, okRect, cancelRect, ok, cancel, hint] <;> omega

end Texts

/-- A dialog, which has a slot for each field, changes nothing beside its frame and has places inside for its fields and
    its buttons, exactly if the simulator is as wide as the buttons; has room for the fields, so that the buttons, which
    go up with the bottom, are not in the row of the last one, nor its error below the frame; and is so narrow that the
    frame goes as far as the screen, unless the prompt and the labels are shorter than the frame. -/
theorem drawn_inside_iff {columns : Nat} {area : CellRect} (asked : d.fields ≠ [])
    (paired : d.session.slots.length = d.fields.length)
    (placed : (AppLayout.ofSize width height (some columns)).simulator = some area) :
    let bounds := Window.dialogRect area d
    (∀ s : Screen, s.width = width → s.height = height → ∀ row col, bounds.contains row col = false →
        (d.draw s bounds).get? row col = s.get? row col) ∧ bounds.Separate (d.targets bounds) ↔
      20 ≤ area.width ∧
      (d.size.2 ≤ area.height + 2 ∨
        d.size.2 = area.height + 4 ∧ ∀ slot, d.session.slots.getLast? = some slot → slot.error = none) ∧
      (area.width ≤ d.size.1 ∨ (∀ prompt, d.session.prompt = some prompt → prompt.length ≤ d.size.1 - 2) ∧
        ∀ slot ∈ d.session.slots, slot.label.length ≤ d.size.1 - 2) := by
  intro bounds
  have framed : d.Framed width height area bounds := framed d placed
  have drawn (s : Screen) : ∃ framed, Screen.Spares (fun row col => bounds.contains row col = false) s framed ∧
      Screen.Painted (d.picture bounds) framed (d.draw s bounds) := by
    refine ⟨_, .box fun r c above below behind before => ?_, d.painted_draw s bounds⟩
    simp only [Bool.not_eq_false, CellRect.contains_iff]
    exact ⟨above, below, behind, before⟩
  have rows : d.size.2 = 4 + d.promptRows + 3 * d.fields.length := by rw [size_eq]
  have columns := framed.columns
  have tall := framed.rows
  rw [size_eq] at columns
  rw [Screen.unchanged_iff_within drawn, separate_iff asked]
  by_cases room : 20 ≤ bounds.width ∧ d.size.2 ≤ bounds.height + 4 ∧ d.size.2 ≠ bounds.height + 3
  · obtain ⟨wide, high, clear⟩ := room
    rw [within_picture_iff framed wide high asked paired, and_iff_left ⟨wide, high, clear⟩, and_comm]
    have simulator : 20 ≤ area.width := by omega
    rw [and_iff_right simulator]
    refine and_congr_left fun _ => ?_
    by_cases low : d.size.2 = bounds.height + 4
    · have below : d.size.2 = area.height + 4 := by omega
      have crowded : ¬d.size.2 ≤ area.height + 2 := by omega
      rw [imp_iff_right low, or_iff_right crowded, and_iff_right below]
    · have fits : d.size.2 ≤ area.height + 2 := by omega
      simp [low, fits]
  · refine iff_of_false (fun both => room both.2) fun ⟨simulator, fits, _⟩ => room ?_
    have fits := fits.imp_right And.left
    omega

/-- In the lowest simulator in which a dialog of a field and a prompt has its place, a prompt of 50 characters is
    inside, and one of 51 is not. -/
theorem drawn_inside_iff_of_prompt :
    let asking (length : Nat) := ofRequest ⟨some (String.ofList (List.replicate length '?')), [.integer]⟩
    let inside (d : InputDialog) : Prop :=
      let bounds := Window.dialogRect ⟨1, 2, 80, 6⟩ d
      (∀ s : Screen, s.width = 80 → s.height = 8 → ∀ row col, bounds.contains row col = false →
        (d.draw s bounds).get? row col = s.get? row col) ∧ bounds.Separate (d.targets bounds)
    inside (asking 50) ∧ ¬inside (asking 51) := by
  intro asking inside
  have size (length : Nat) : (asking length).size = (52, 8) := by
    simp [size_eq, asking, ofRequest, Session.ofRequest, promptRows]
  have prompt (length : Nat) : (asking length).session.prompt = some (String.ofList (List.replicate length '?')) := rfl
  have slots (length : Nat) : (asking length).session.slots = [.ofKind .integer] := rfl
  have label : (Slot.ofKind .integer).label.length = 7 := rfl
  have exactly (length : Nat) : inside (asking length) ↔ length ≤ 50 := by
    refine (@drawn_inside_iff (asking length) 80 8 82 ⟨1, 2, 80, 6⟩ ?_ rfl rfl).trans ?_
    · simp [asking, ofRequest]
    · simp [size, prompt, slots, label]
  exact ⟨(exactly 50).mpr (Nat.le_refl 50), fun both => absurd ((exactly 51).mp both) (by decide)⟩

end InputDialog

end PocketBasic
