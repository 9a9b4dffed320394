import PocketBasic.Proofs.Dialog.Acceptance
import PocketBasic.View.Inspector

/-! # The editor of the inspector

An editor is open only while the panel has the keyboard, and takes the keys then. It opens with the text of a value and
the cursor behind it; until it closes nothing happens to it but the events it handles.
-/

namespace PocketBasic

namespace InspectorPanel

/-- What happens to a panel: an event, with the rig as it then is and the place of the panel, a move of the keyboard, or
    a change of the lifecycle. -/
inductive Operation (σ : Type) where
  | event (engine : σ) (input : Input) (bounds : CellRect)
  | focus (focused : Bool)
  | enable (enabled : Bool) (store : Store)

/-- A field as it is when the editor opens. -/
def prefilled (text : List Char) : TextField := { TextField.empty.insertText text with focused := true }

/-- The editor before an event and after it: it stays, closes, opens or handles the event. -/
inductive EditorStep (input : Input) (bounds : CellRect) : Option TextField → Option TextField → Prop
  | same {editor : Option TextField} : EditorStep input bounds editor editor
  | closed {editor : Option TextField} : EditorStep input bounds editor none
  | opened (text : List Char) : EditorStep input bounds none (some (prefilled text))
  | handled {f : TextField} (rect : CellRect) (width : rect.width = bounds.width - 17) :
      EditorStep input bounds (some f) (some (f.handle input rect).2)

/-- Keys go to the editor while it is open. -/
def Keyed (p : InspectorPanel) : Prop :=
  ∀ f, p.editor = some f → p.focused = true ∧ p.model.enabled = true ∧ f.focused = true

variable {σ : Type} [Engine σ] {p : InspectorPanel} {store : Store} {input : Input} {bounds : CellRect} {engine : σ}

/-- The panel after an operation. -/
def perform (p : InspectorPanel) : Operation σ → InspectorPanel
  | .event engine input bounds => (p.handle engine input bounds).2.1
  | .focus focused => p.setFocus focused
  | .enable enabled store => p.setEnabled enabled store

/-- The panel after operations, in turn. -/
def performAll (p : InspectorPanel) (ops : List (Operation σ)) : InspectorPanel := ops.foldl perform p

theorem performAll_concat (ops : List (Operation σ)) (op : Operation σ) :
    p.performAll (ops ++ [op]) = (p.performAll ops).perform op := by
  simp [performAll]

/-! ## The list -/

theorem enabled_refresh (i : Inspector) (store : Store) : (i.refresh store).enabled = i.enabled := by
  unfold Inspector.refresh
  split <;> rfl

theorem enabled_toggle (i : Inspector) (store : Store) : (i.toggle store).2.enabled = i.enabled := by
  unfold Inspector.toggle
  split
  · exact enabled_refresh _ store
  · rfl

theorem enabled_commit (i : Inspector) (engine : σ) (text : List Char) :
    (i.commit engine text).2.1.enabled = i.enabled := by
  unfold Inspector.commit
  split
  · split
    · rfl
    · split
      · rfl
      · split
        · rfl
        · exact enabled_refresh i _
  · rfl

/-! ## Steps of the editor -/

theorem width_valueRect (p : InspectorPanel) (bounds : CellRect) (index : Nat) :
    (p.valueRect (listRect bounds) index).width = bounds.width - 17 := by
  simp only [valueRect, listRect, labelWidth]
  omega

theorem keyed_of_closed (closed : p.editor = none) : p.Keyed := by
  intro f open'
  rw [closed] at open'
  cases open'

theorem Keyed.withModel (keyed : p.Keyed) {model : Inspector} (same : model.enabled = p.model.enabled) :
    Keyed { p with model } := fun f opened => same.symm ▸ keyed f opened

theorem Keyed.setFocus (keyed : p.Keyed) (focused : Bool) : (p.setFocus focused).Keyed ∧
    (p.setFocus focused).editor = if (p.setFocus focused).focused then p.editor else none := by
  unfold InspectorPanel.setFocus
  cases stays : focused && p.model.enabled with
  | true => exact ⟨fun f opened => ⟨rfl, (keyed f opened).2⟩, rfl⟩
  | false => exact ⟨keyed_of_closed rfl, rfl⟩

theorem Keyed.setEnabled (keyed : p.Keyed) (enabled : Bool) (store : Store) :
    (p.setEnabled enabled store).Keyed ∧
      (p.setEnabled enabled store).editor = if enabled then p.editor else none := by
  unfold InspectorPanel.setEnabled
  cases enabled with
  | true =>
      exact ⟨fun f opened => ⟨(keyed f opened).1, enabled_refresh _ store, (keyed f opened).2.2⟩, rfl⟩
  | false =>
      have closed : ({ p with model := p.model.setEnabled false store }.setFocus false).editor = none := by
        simp [InspectorPanel.setFocus, closeEditor]
      exact ⟨keyed_of_closed closed, closed⟩

/-- Acting on the selected row opens an editor at most. -/
theorem activate_step (closed : p.editor = none) (focused : p.focused = true) (store : Store) :
    (p.activate store).Keyed ∧ EditorStep input bounds none (p.activate store).editor := by
  have enabled := enabled_toggle p.model store
  unfold InspectorPanel.activate
  split
  all_goals
    rename_i model toggled
    rw [toggled] at enabled
  · exact ⟨keyed_of_closed closed, closed.symm ▸ .same⟩
  · unfold beginEdit
    split
    · rename_i text found
      have on : model.enabled = true := by
        unfold Inspector.editText at found
        split at found
        · assumption
        · cases found
      refine ⟨fun f opened => ?_, .opened _⟩
      cases opened
      exact ⟨focused, on, rfl⟩
    · exact ⟨keyed_of_closed closed, closed.symm ▸ .same⟩

theorem Keyed.clickRow (keyed : p.Keyed) (focused : p.focused = true) (wasFocused : Bool) (index : Nat)
    (store : Store) :
    (p.clickRow wasFocused index store).Keyed ∧
      EditorStep input bounds p.editor (p.clickRow wasFocused index store).editor := by
  unfold InspectorPanel.clickRow
  split
  · exact ⟨keyed.withModel rfl, .same⟩
  · split
    · split
      · exact ⟨keyed, .same⟩
      · rename_i closed
        have closed := Option.not_isSome_iff_eq_none.mp closed
        rw [closed]
        exact activate_step closed focused store
    · exact ⟨keyed_of_closed rfl, .closed⟩

theorem Keyed.click (keyed : p.Keyed) (row col : Nat) (place : CellRect) (store : Store) :
    (p.click row col place store).Keyed ∧ EditorStep input bounds p.editor (p.click row col place store).editor := by
  obtain ⟨kept, left⟩ := keyed.setFocus true
  unfold InspectorPanel.click
  dsimp only
  cases focused : (p.setFocus true).focused with
  | false =>
      rw [focused] at left
      simp only [Bool.not_false, Bool.true_or, if_true]
      rw [left]
      exact ⟨kept, .closed⟩
  | true =>
      rw [focused] at left
      split
      · rw [left]
        exact ⟨kept, .same⟩
      · split
        · rw [left]
          exact ⟨kept, .same⟩
        · rw [if_pos rfl] at left
          rw [← left]
          exact kept.clickRow focused _ _ store

theorem Keyed.navigate (keyed : p.Keyed) (focused : p.focused = true) (closed : p.editor = none) (store : Store)
    {after : InspectorPanel} {key : Input} (moved : p.navigate? store key = some after) :
    after.Keyed ∧ EditorStep input bounds p.editor after.editor := by
  cases key with
  | cursorUp | cursorDown | home | «end» =>
      cases moved
      exact ⟨keyed.withModel rfl, .same⟩
  | enter =>
      cases moved
      rw [closed]
      exact activate_step closed focused store
  | escape =>
      cases moved
      exact ⟨(keyed.setFocus false).1, by rw [(keyed.setFocus false).2]; exact .closed⟩
  | _ => cases moved

theorem Keyed.commit (keyed : p.Keyed) (engine : σ) (text : List Char) :
    (p.commit engine text).1.Keyed ∧
      ((p.commit engine text).1.editor = p.editor ∨ (p.commit engine text).1.editor = none) := by
  have enabled := enabled_commit p.model engine text
  unfold InspectorPanel.commit
  split
  all_goals
    rename_i committed
    rw [committed] at enabled
  · exact ⟨keyed_of_closed rfl, .inr rfl⟩
  · exact ⟨fun f opened => ⟨(keyed f opened).1, enabled.trans (keyed f opened).2.1, (keyed f opened).2.2⟩, .inl rfl⟩

theorem Keyed.typeInto (keyed : p.Keyed) {f : TextField} (opened : p.editor = some f) (engine : σ) :
    (p.typeInto engine f input bounds).1.Keyed ∧
      EditorStep input bounds (some f) (p.typeInto engine f input bounds).1.editor := by
  unfold InspectorPanel.typeInto
  split
  · exact ⟨keyed_of_closed rfl, .closed⟩
  · have handles : ({ p with
        editor := some (f.handle input (p.valueRect (listRect bounds) p.model.selected)).2 } : InspectorPanel).Keyed := by
      rintro _ ⟨⟩
      obtain ⟨focused, enabled, keyboard⟩ := keyed f opened
      exact ⟨focused, enabled, (f.focused_handle _ _).trans keyboard⟩
    dsimp only
    split
    · obtain ⟨kept, left⟩ := handles.commit engine
        (f.handle input (p.valueRect (listRect bounds) p.model.selected)).2.text
      refine ⟨kept, ?_⟩
      rcases left with left | left <;> rw [left]
      · exact .handled _ (p.width_valueRect bounds _)
      · exact .closed
    · exact ⟨handles, .handled _ (p.width_valueRect bounds _)⟩

/-- An event leaves the keys to the editor, and does one step with it. -/
theorem Keyed.handle (keyed : p.Keyed) (engine : σ) (input : Input) (bounds : CellRect) :
    (p.handle engine input bounds).2.1.Keyed ∧
      EditorStep input bounds p.editor (p.handle engine input bounds).2.1.editor := by
  unfold InspectorPanel.handle
  split
  · split
    · split
      · exact keyed.click _ _ _ _
      · exact ⟨keyed, .same⟩
    · exact ⟨keyed, .same⟩
  · split
    · exact ⟨keyed, .same⟩
    · rename_i focused
      have focused : p.focused = true := by simpa using focused
      cases opened : p.editor with
      | some f => exact keyed.typeInto opened engine
      | none =>
          dsimp only
          split
          · rename_i moved
            exact opened ▸ keyed.navigate focused opened _ moved
          · exact ⟨keyed, opened.symm ▸ .same⟩

theorem keyed_empty : empty.Keyed := keyed_of_closed rfl

theorem Keyed.perform (keyed : p.Keyed) (op : Operation σ) : (p.perform op).Keyed := by
  cases op with
  | event engine input bounds => exact (keyed.handle engine input bounds).1
  | focus focused => exact (keyed.setFocus focused).1
  | enable enabled store => exact (keyed.setEnabled enabled store).1

theorem Keyed.performAll (keyed : p.Keyed) (ops : List (Operation σ)) : (p.performAll ops).Keyed := by
  induction ops generalizing p with
  | nil => exact keyed
  | cons op rest ih => exact ih (keyed.perform op)

/-- An editor that is open after an operation was open before, or has opened with a text, or has handled an event. -/
theorem Keyed.editor_perform (keyed : p.Keyed) {op : Operation σ} {g : TextField}
    (after : (p.perform op).editor = some g) :
    p.editor = some g ∨ (p.editor = none ∧ ∃ text, g = prefilled text) ∨
      ∃ f engine input bounds, p.editor = some f ∧ op = .event engine input bounds ∧
        ∃ rect : CellRect, rect.width = bounds.width - 17 ∧ g = (f.handle input rect).2 := by
  have stays {open' : Prop} [Decidable open'] (left : (p.perform op).editor = if open' then p.editor else none) :
      p.editor = some g := by
    rw [after] at left
    split at left
    · exact left.symm
    · cases left
  cases op with
  | focus focused => exact .inl (stays (keyed.setFocus focused).2)
  | enable enabled store => exact .inl (stays (keyed.setEnabled enabled store).2)
  | event engine input bounds =>
      have step := (keyed.handle engine input bounds).2
      rw [show (p.handle engine input bounds).2.1.editor = some g from after] at step
      generalize p.editor = before at step
      cases step with
      | same => exact .inl rfl
      | opened text => exact .inr (.inl ⟨rfl, text, rfl⟩)
      | handled rect width => exact .inr (.inr ⟨_, engine, input, bounds, rfl, rfl, rect, width, rfl⟩)

/-- A character goes into the editor that is open. -/
theorem Keyed.handle_char (keyed : p.Keyed) {f : TextField} (opened : p.editor = some f) (engine : σ) (c : Char)
    (bounds : CellRect) :
    (p.handle engine (.char c) bounds).2.1.editor = some ((f.insertChar c).showCursor (bounds.width - 17)) := by
  obtain ⟨focused, -, keyboard⟩ := keyed f opened
  have typed : f.handle (.char c) (p.valueRect (listRect bounds) p.model.selected) =
      (.consumed, (f.insertChar c).showCursor (bounds.width - 17)) := by
    rw [f.handle_char _ keyboard, width_valueRect]
  simp [InspectorPanel.handle, Input.position?, focused, opened, InspectorPanel.typeInto, typed]

end InspectorPanel

end PocketBasic
