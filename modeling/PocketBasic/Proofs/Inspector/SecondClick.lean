import PocketBasic.Proofs.Inspector.Commit

/-! # Clicking a row twice

The first click on a row of the inspector selects it, and another one in the same place is meant to act on it: to
expand or collapse an array and to open the editor on anything else. The first row in view follows from the row
that is selected, though, so a list that is scrolled moves under the mouse when a row above its last line is
selected. The second click then hits a row further up and does no more than select that one.
-/

namespace PocketBasic

/-- The variable or the element is there. -/
def RowTarget.Stands (store : Store) : RowTarget → Prop
  | .array name _ => (store.bindings.any fun b => b.name = name) = true
  | target => (Inspector.targetValue? store target).isSome = true

namespace InspectorPanel

/-- The row that is shown in a line of the screen. -/
def indexAt (p : InspectorPanel) (bounds : CellRect) (row : Nat) : Nat :=
  p.firstVisible (listRect bounds) + (row - (listRect bounds).y)

/-- An array is expanded now if it was not and the other way round. Anything else has the editor open on it, with
    the text of its value in one line. -/
def ActedOn (store : Store) (row : InspectorRow) (before after : InspectorPanel) : Prop :=
  match row.target with
  | .array name _ => name ∈ after.model.expanded ↔ name ∉ before.model.expanded
  | target => after.model.selectedRow? = some row ∧ ∃ field value,
      after.editor = some field ∧ Inspector.targetValue? store target = some value ∧
        field.text = value.editText.toList.filter fun c => c ≠ '\r' ∧ c ≠ '\n'

variable {σ : Type} [Engine σ] {p : InspectorPanel} {store : Store} {bounds : CellRect} {row col index : Nat}
  {shown : InspectorRow}

/-! ## Rows that stand for something -/

theorem name_of_mem_ofBinding {expanded : List String} {binding : Binding}
    (member : shown ∈ InspectorRow.ofBinding store expanded binding) : shown.target.name = binding.name := by
  cases binding with
  | scalar name =>
      obtain rfl := List.mem_singleton.mp member
      rfl
  | array name dims =>
      rcases List.mem_cons.mp member with rfl | inside
      · rfl
      · split at inside
        · obtain ⟨subs, _, rfl⟩ := List.mem_map.mp inside
          rfl
        · cases inside

/-- Everything in a list that is fresh is there. -/
theorem stands_of_fresh (fresh : p.model.Fresh true store) (sized : store.Sized) (member : shown ∈ p.model.rows) :
    shown.target.Stands store := by
  rw [fresh.rows, if_pos rfl] at member
  rcases Inspector.shown_of_mem_ofStore sized member with ⟨name, dims, array⟩ | ⟨value, found, _⟩
  · obtain ⟨binding, bound, inside⟩ := List.mem_flatMap.mp member
    have same := name_of_mem_ofBinding inside
    rw [array] at same ⊢
    exact List.any_eq_true.mpr ⟨binding, bound, decide_eq_true same.symm⟩
  · cases h : shown.target with
    | array => rw [h] at found; cases found
    | scalar | element =>
        rw [h] at found
        exact Option.isSome_of_eq_some found

/-! ## Acting on a row -/

theorem beginEdit_of_readable (enabled : p.model.enabled = true) (selected : p.model.selectedRow? = some shown)
    {value : Value} (found : Inspector.targetValue? store shown.target = some value) :
    p.beginEdit store = { p with
      editor := some { TextField.empty.insertText value.editText.toList with focused := true }, error := none } := by
  simp [beginEdit, Inspector.editText, enabled, selected, found]

/-- The row that is selected is acted on, if it stands for something. -/
theorem actedOn_activate (enabled : p.model.enabled = true) (selected : p.model.selectedRow? = some shown)
    (stands : shown.target.Stands store) : ActedOn store shown p (p.activate store) := by
  obtain ⟨target, label, text⟩ := shown
  cases target with
  | array name dims =>
      have bound : (store.bindings.any fun b => b.name = name) = true := stands
      simp only [activate, Inspector.toggle, selected, ActedOn, Inspector.refresh, enabled, if_true]
      split
      · rename_i inside
        simpa [Inspector.select] using inside
      · rename_i outside
        simpa [Inspector.select, bound] using outside
  | scalar | element =>
      obtain ⟨value, found⟩ := Option.isSome_iff_exists.mp stands
      have opened := beginEdit_of_readable enabled selected found
      simp only [activate, Inspector.toggle, selected, opened]
      exact ⟨selected, _, value, rfl, found, by simp [TextField.insertText, TextField.empty]⟩

/-- Selecting another row acts on none. -/
theorem not_actedOn_of_select {before after : InspectorPanel} {other : Nat}
    (model : after.model = { before.model with selected := other }) (closed : after.editor = none) :
    ¬ActedOn store shown before after := by
  unfold ActedOn
  split
  · rw [model]
    exact fun flipped => (iff_not_self flipped).elim
  · rintro ⟨_, field, value, opened, _⟩
    rw [closed] at opened
    cases opened

/-! ## Clicks -/

theorem click_of_row (store : Store) (enabled : p.model.enabled = true)
    (inside : (listRect bounds).contains row col = true) (below : p.indexAt bounds row < p.model.rows.length) :
    p.click row col bounds store = { p with focused := true }.clickRow p.focused (p.indexAt bounds row) store := by
  have keyboard : p.setFocus true = { p with focused := true } := by simp [setFocus, enabled]
  have place : ({ p with focused := true } : InspectorPanel).firstVisible (listRect bounds) +
      (row - (listRect bounds).y) = p.indexAt bounds row := rfl
  simp only [click, keyboard, inside, place, if_neg (Nat.not_le_of_lt below)]
  rfl

theorem handle_click (inside : (listRect bounds).contains row col = true) (engine : σ) :
    p.handle engine (.click row col) bounds = (.consumed, p.click row col bounds (Engine.store engine), engine) := by
  have within : bounds.contains row col = true := by
    simp only [CellRect.contains, Bool.and_eq_true, decide_eq_true_eq] at inside ⊢
    simp only [listRect] at inside
    omega
  simp [handle, Input.position?, within]

theorem select_of_lt (below : index < p.model.rows.length) :
    (p.select index).model = { p.model with selected := index } := by
  simp only [select, Inspector.select]
  rw [Nat.min_eq_left (by omega)]

/-- A click on a row that is not selected, or into a panel without the keyboard, selects the row. -/
theorem clickRow_selects (store : Store) (below : index < p.model.rows.length) (closed : p.editor = none)
    {wasFocused : Bool} (selects : wasFocused = false ∨ p.model.selected ≠ index) :
    (p.clickRow wasFocused index store).model = { p.model with selected := index } ∧
      (p.clickRow wasFocused index store).editor = none ∧
      (p.clickRow wasFocused index store).focused = p.focused := by
  unfold clickRow
  split
  · exact ⟨select_of_lt below, closed, rfl⟩
  · rename_i focused
    have other : ¬index = p.model.selected := fun same => by simp_all
    rw [if_neg other]
    exact ⟨select_of_lt (p := p.closeEditor) below, rfl, rfl⟩

/-- With the row of a line selected, the line shows that row still if the list is not scrolled or the line is its
    last, and otherwise a row further up. -/
theorem indexAt_of_selected (after : InspectorPanel) (inside : (listRect bounds).contains row col = true)
    (selected : after.model.selected = p.indexAt bounds row) :
    (after.indexAt bounds row = p.indexAt bounds row ↔
      p.firstVisible (listRect bounds) = 0 ∨ row + 1 = (listRect bounds).y + (listRect bounds).height) ∧
      after.indexAt bounds row ≤ p.indexAt bounds row := by
  simp only [CellRect.contains, Bool.and_eq_true, decide_eq_true_eq] at inside
  simp only [indexAt, firstVisible, selected]
  omega

/-- A click that selects a row makes the same click act on it exactly if the list is not scrolled or the row is in
    the last line of the list. In any other line a row further up has come under the mouse, and the second click
    does no more than select that one. -/
theorem second_click_acts_iff (engine : σ) (enabled : p.model.enabled = true) (closed : p.editor = none)
    (inside : (listRect bounds).contains row col = true)
    (here : p.model.rows[p.indexAt bounds row]? = some shown) (stands : shown.target.Stands (Engine.store engine))
    (selects : p.focused = false ∨ p.model.selected ≠ p.indexAt bounds row) :
    let list := listRect bounds
    let once := p.handle engine (.click row col) bounds
    let twice := once.2.1.handle once.2.2 (.click row col) bounds
    (once.2.1.model = { p.model with selected := p.indexAt bounds row } ∧ once.2.1.focused = true ∧
      once.2.1.editor = none) ∧
    once.2.2 = engine ∧ twice.2.2 = engine ∧
    (ActedOn (Engine.store engine) shown once.2.1 twice.2.1 ↔
      p.firstVisible list = 0 ∨ row + 1 = list.y + list.height) ∧
    (p.firstVisible list = 0 ∨ row + 1 = list.y + list.height ∨
      ∃ other < p.indexAt bounds row, twice.2.1.model = { p.model with selected := other } ∧
        twice.2.1.editor = none) := by
  have below : p.indexAt bounds row < p.model.rows.length := (List.getElem?_eq_some_iff.mp here).1
  simp only [handle_click inside]
  rw [click_of_row _ enabled inside below]
  obtain ⟨model, editor, focused⟩ : _ ∧ _ ∧ _ = true := clickRow_selects (p := { p with focused := true })
    (Engine.store engine) below closed selects
  generalize ({ p with focused := true } : InspectorPanel).clickRow p.focused (p.indexAt bounds row)
    (Engine.store engine) = once at model editor focused ⊢
  have selected : once.model.selected = p.indexAt bounds row := by rw [model]
  have length : once.model.rows.length = p.model.rows.length := by rw [model]
  have enabled' : once.model.enabled = true := by rw [model]; exact enabled
  obtain ⟨same, above⟩ := indexAt_of_selected (p := p) once inside selected
  have click := click_of_row (p := once) (Engine.store engine) enabled' inside (by omega)
  have focus : ({ once with focused := true } : InspectorPanel) = once := by
    rw [← focused]
  rw [focus, focused] at click
  refine ⟨⟨model, focused, editor⟩, trivial, trivial, ?_⟩
  by_cases still : once.indexAt bounds row = p.indexAt bounds row
  · have acts : once.click row col bounds (Engine.store engine) = once.activate (Engine.store engine) := by
      rw [click, still, clickRow, if_neg (by simp), if_pos selected.symm, editor]
      rfl
    have row' : once.model.selectedRow? = some shown := by
      rw [Inspector.selectedRow?, selected, model]
      exact here
    rw [acts]
    refine ⟨iff_of_true (actedOn_activate enabled' row' stands) (same.mp still), ?_⟩
    exact (same.mp still).imp_right .inl
  · have other : once.model.selected ≠ once.indexAt bounds row := by omega
    have inside : once.indexAt bounds row < once.model.rows.length := by omega
    obtain ⟨moved, shut, -⟩ := clickRow_selects (Engine.store engine) inside editor (.inr other)
    rw [← click] at moved shut
    have elsewhere : ¬ActedOn (Engine.store engine) shown once (once.click row col bounds (Engine.store engine)) :=
      not_actedOn_of_select moved shut
    refine ⟨iff_of_false elsewhere fun fits => still (same.mpr fits), .inr (.inr ?_)⟩
    exact ⟨once.indexAt bounds row, by omega, by rw [moved, model], shut⟩

end InspectorPanel

/-- Eight variables in six lines, and the last one selected: two clicks on the first line, which shows `C%`, select
    `C%` and then `A%`, and no editor opens. -/
theorem InspectorPanel.second_click_acts_iff_scrolled :
    let store := Store.empty.performAll (["A%", "B%", "C%", "D%", "E%", "F%", "G%", "H%"].map (.assign · (.integer 1)))
    let engine : Playback := ⟨{ PlaybackEngine.ofResults [] with store }, .ofLit []⟩
    let bounds : CellRect := ⟨1, 1, 40, 9⟩
    let p := ((InspectorPanel.empty.setEnabled true store).setFocus true).select 8
    let once := p.handle engine (.click 2 4) bounds
    let twice := once.2.1.handle once.2.2 (.click 2 4) bounds
    once.2.1.model.selectedRow? = some ⟨.scalar "C%", "C%", "1"⟩ ∧
      twice.2.1.model.selectedRow? = some ⟨.scalar "A%", "A%", "1"⟩ ∧ twice.2.1.editor = none ∧
      ¬InspectorPanel.ActedOn store ⟨.scalar "C%", "C%", "1"⟩ once.2.1 twice.2.1 := by
  intro store engine bounds p once twice
  have fresh : p.Fresh true store := (InspectorPanel.Fresh.setFocus
    (InspectorPanel.Fresh.setEnabled (p := .empty) nofun true store).model true).select 8
  have sized : store.Sized := Store.sized_empty.performAll _
  have inside : (InspectorPanel.listRect bounds).contains 2 4 = true := by decide +kernel
  have here : p.model.rows[p.indexAt bounds 2]? = some ⟨.scalar "C%", "C%", "1"⟩ := by decide +kernel
  have acts := (InspectorPanel.second_click_acts_iff engine (by decide +kernel) (by decide +kernel) inside here
    (InspectorPanel.stands_of_fresh fresh.model sized (List.mem_of_getElem? here)) (.inr (by decide +kernel))).2.2.2.1
  refine ⟨by decide +kernel, by decide +kernel, by decide +kernel, fun acted => ?_⟩
  exact absurd (acts.mp acted) (by decide +kernel)

end PocketBasic
