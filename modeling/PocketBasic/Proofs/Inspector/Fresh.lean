import PocketBasic.Program.Computer
import PocketBasic.Proofs.Engine.Keeps

/-! # What the inspector shows

The rows of the inspector are a copy of the variables, so they have to be rebuilt whenever a variable may
have changed. A panel that is switched on always shows what is stored; one that is switched off shows
nothing, does not have the keyboard and has no editor open. Its own events keep it so, also the one that
stores a value.
-/

namespace PocketBasic

/-- The engine holds what is stored in it, whatever is converted and given back in between. -/
structure Engine.Stores (σ : Type) [Engine σ] : Prop where
  kept : Engine.KeptInSessions fun rig : σ => Engine.store rig
  stored : ∀ (rig : σ) (store : Store), Engine.store (Engine.withStore rig store) = store

theorem Computer.stores : Engine.Stores Computer where
  kept := ⟨fun _ _ => rfl, fun _ _ => rfl⟩
  stored _ _ := rfl

/-- The rows are those of the store for the arrays that are expanded, and there are none while the inspector
    is switched off. -/
structure Inspector.Fresh (enabled : Bool) (store : Store) (i : Inspector) : Prop where
  switch : i.enabled = enabled
  rows : i.rows = if enabled then InspectorRow.ofStore store i.expanded else []

namespace Inspector

variable {i : Inspector} {enabled : Bool} {store : Store}

theorem fresh_refresh (switch : i.enabled = enabled) (store : Store) :
    (i.refresh store).Fresh enabled store := by
  subst switch
  unfold refresh
  cases on : i.enabled with
  | true => exact ⟨rfl, rfl⟩
  | false => exact ⟨rfl, rfl⟩

namespace Fresh

theorem select (fresh : i.Fresh enabled store) (index : Nat) : (i.select index).Fresh enabled store :=
  ⟨fresh.switch, fresh.rows⟩

/-- Expanding and collapsing rebuild the rows. -/
theorem toggle (fresh : i.Fresh enabled store) : (i.toggle store).2.Fresh enabled store := by
  unfold Inspector.toggle
  split
  · rename_i name _ _ _ _
    let expanded :=
      if i.expanded.contains name then i.expanded.filter (· ≠ name) else name :: i.expanded
    exact fresh_refresh (i := { i with expanded }) fresh.switch store
  · exact fresh

variable {σ : Type} [Engine σ]

/-- A value that was stored is shown at once, and one that was refused has changed nothing. -/
theorem commit {engine : σ} (stores : Engine.Stores σ) (fresh : i.Fresh enabled (Engine.store engine))
    (text : List Char) :
    (i.commit engine text).2.1.Fresh enabled (Engine.store (i.commit engine text).2.2) := by
  unfold Inspector.commit
  split
  · split
    · exact fresh
    · rename_i row _
      have kept : Engine.store (Conversion.value engine text (.ofName row.target.name)).2 =
          Engine.store engine := stores.kept.value engine text _
      split
      · rename_i refused
        rw [refused] at kept
        rw [← kept] at fresh
        exact fresh
      · rename_i converted
        rw [converted] at kept
        split
        · rw [← kept] at fresh
          exact fresh
        · simp only [stores.stored]
          exact fresh_refresh fresh.switch _
  · exact fresh

end Fresh

end Inspector

/-- The list is fresh, only a panel that is switched on has the keyboard, and only one that has it has an
    editor open. -/
structure InspectorPanel.Fresh (enabled : Bool) (store : Store) (p : InspectorPanel) : Prop where
  model : p.model.Fresh enabled store
  switched : p.focused = true → enabled = true
  editing : p.editor.isSome = true → p.focused = true

namespace InspectorPanel

variable {p : InspectorPanel} {enabled : Bool} {store : Store}

theorem fresh_empty : empty.Fresh true .empty := by
  refine ⟨⟨rfl, rfl⟩, fun _ => rfl, fun editing => ?_⟩
  cases editing

namespace Fresh

theorem withModel (fresh : p.Fresh enabled store) {model : Inspector}
    (shown : model.Fresh enabled store) :
    InspectorPanel.Fresh enabled store { p with model } :=
  ⟨shown, fresh.switched, fresh.editing⟩

theorem closeEditor (fresh : p.Fresh enabled store) : p.closeEditor.Fresh enabled store :=
  ⟨fresh.model, fresh.switched, fun editing => by cases editing⟩

/-- Taking the keyboard away closes the editor. -/
theorem setFocus (shown : p.model.Fresh enabled store) (focused : Bool) :
    (p.setFocus focused).Fresh enabled store := by
  have switched : (focused && p.model.enabled) = true → enabled = true := by
    intro both
    rw [← shown.switch]
    exact ((Bool.and_eq_true _ _).mp both).2
  simp only [InspectorPanel.setFocus]
  split
  · rename_i both
    exact ⟨shown, switched, fun _ => both⟩
  · exact ⟨shown, switched, fun editing => by cases editing⟩

/-- Switching the panel on or off leaves nothing of what it showed before. -/
theorem setEnabled (editing : p.editor.isSome = true → p.focused = true) (enabled : Bool)
    (store : Store) : (p.setEnabled enabled store).Fresh enabled store := by
  have shown : (p.model.setEnabled enabled store).Fresh enabled store :=
    Inspector.fresh_refresh (i := { p.model with enabled }) rfl store
  unfold InspectorPanel.setEnabled
  cases enabled with
  | true => exact ⟨shown, fun _ => rfl, editing⟩
  | false => exact setFocus (p := { p with model := p.model.setEnabled false store }) shown false

theorem select (fresh : p.Fresh enabled store) (index : Nat) : (p.select index).Fresh enabled store :=
  fresh.withModel (fresh.model.select index)

theorem beginEdit (fresh : p.Fresh enabled store) (focused : p.focused = true) :
    (p.beginEdit store).Fresh enabled store := by
  unfold InspectorPanel.beginEdit
  split
  · exact ⟨fresh.model, fresh.switched, fun _ => focused⟩
  · exact fresh

theorem activate (fresh : p.Fresh enabled store) (focused : p.focused = true) :
    (p.activate store).Fresh enabled store := by
  have toggled := fresh.model.toggle
  unfold InspectorPanel.activate
  split
  all_goals
    rename_i model same
    rw [same] at toggled
  · exact fresh.withModel toggled
  · exact beginEdit (p := { p with model }) (fresh.withModel toggled) focused

theorem clickRow (fresh : p.Fresh enabled store) (focused : p.focused = true) (wasFocused : Bool)
    (index : Nat) : (p.clickRow wasFocused index store).Fresh enabled store := by
  unfold InspectorPanel.clickRow
  split
  · exact fresh.select index
  · split
    · split
      · exact fresh
      · exact fresh.activate focused
    · exact fresh.closeEditor.select index

theorem click (fresh : p.Fresh enabled store) (row col : Nat) (bounds : CellRect) :
    (p.click row col bounds store).Fresh enabled store := by
  have clicked : (p.setFocus true).Fresh enabled store := setFocus fresh.model true
  unfold InspectorPanel.click
  dsimp only
  split
  · exact clicked
  · rename_i inside
    have focused : (p.setFocus true).focused = true := by
      simp only [Bool.or_eq_true, not_or, Bool.not_eq_true', Bool.not_eq_false] at inside
      exact inside.1
    split
    · exact clicked
    · exact clicked.clickRow focused p.focused _

theorem navigate (fresh : p.Fresh enabled store) (focused : p.focused = true) {input : Input}
    {moved : InspectorPanel} (navigated : p.navigate? store input = some moved) :
    moved.Fresh enabled store := by
  unfold InspectorPanel.navigate? at navigated
  split at navigated <;> cases navigated
  · exact fresh.select _
  · exact fresh.select _
  · exact fresh.select 0
  · exact fresh.select _
  · exact fresh.activate focused
  · exact setFocus fresh.model false

variable {σ : Type} [Engine σ] {engine : σ}

theorem commit (stores : Engine.Stores σ) (fresh : p.Fresh enabled (Engine.store engine))
    (text : List Char) :
    (p.commit engine text).1.Fresh enabled (Engine.store (p.commit engine text).2) := by
  have committed := fresh.model.commit stores text
  unfold InspectorPanel.commit
  split
  all_goals
    rename_i result
    rw [result] at committed
  · exact ⟨committed, fresh.switched, fun editing => by cases editing⟩
  · exact ⟨committed, fresh.switched, fresh.editing⟩

theorem typeInto (stores : Engine.Stores σ) (fresh : p.Fresh enabled (Engine.store engine))
    (focused : p.focused = true) (field : TextField) (input : Input) (bounds : CellRect) :
    (p.typeInto engine field input bounds).1.Fresh enabled
      (Engine.store (p.typeInto engine field input bounds).2) := by
  have typed (field : TextField) :
      InspectorPanel.Fresh enabled (Engine.store engine) { p with editor := some field } :=
    ⟨fresh.model, fresh.switched, fun _ => focused⟩
  unfold InspectorPanel.typeInto
  split
  · exact fresh.closeEditor
  · dsimp only
    split
    · exact (typed _).commit stores _
    · exact typed _

/-- A panel that is switched off shows nothing that could be out of date. -/
theorem hidden (fresh : p.Fresh false store) (other : Store) : p.Fresh false other :=
  ⟨⟨fresh.model.switch, fresh.model.rows⟩, fresh.switched, fresh.editing⟩

/-- Whatever the panel is told: it shows what is stored afterwards. -/
theorem handle (stores : Engine.Stores σ) (fresh : p.Fresh enabled (Engine.store engine))
    (input : Input) (bounds : CellRect) :
    (p.handle engine input bounds).2.1.Fresh enabled
      (Engine.store (p.handle engine input bounds).2.2) := by
  unfold InspectorPanel.handle
  split
  · split
    · split
      · exact fresh.click _ _ bounds
      · exact fresh
    · exact fresh
  · split
    · exact fresh
    · rename_i focused
      simp only [Bool.not_eq_true', Bool.not_eq_false] at focused
      split
      · exact fresh.typeInto stores focused _ input bounds
      · split
        · rename_i navigated
          exact fresh.navigate focused navigated
        · exact fresh

/-- A panel that is switched off stores nothing. -/
theorem handle_of_disabled (fresh : p.Fresh false (Engine.store engine)) (input : Input)
    (bounds : CellRect) : (p.handle engine input bounds).2.2 = engine := by
  unfold InspectorPanel.handle
  split
  · split
    · split <;> rfl
    · rfl
  · split
    · rfl
    · rename_i focused
      simp only [Bool.not_eq_true', Bool.not_eq_false] at focused
      cases fresh.switched focused

end Fresh

end InspectorPanel

end PocketBasic
