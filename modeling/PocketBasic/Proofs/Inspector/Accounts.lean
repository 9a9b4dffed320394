import PocketBasic.Proofs.Engine.Ledger
import PocketBasic.View.Inspector

/-! # What the inspector gives back

The inspector converts by the rules of an input field, and its values go into variables. A string that is too
long for one goes back at once. So the inspector adds to the books of a ledger what it refuses, and holds
nothing.
-/

namespace PocketBasic

variable {σ : Type} [Engine σ]

/-- What converting for a variable obtains and cannot use. -/
def Conversion.refused (engine : σ) (text : List Char) : ValueType → List Answer
  | .integer | .real => []
  | .string =>
      match Engine.encode engine (Text.toUnits text) with
      | .error _ => []
      | .ok s => if maxStringLength < s.length then [.string s] else []

/-- What storing a text in the selected row gives back. -/
def Inspector.refused (i : Inspector) (engine : σ) (text : List Char) : List Answer :=
  match i.enabled, i.selectedRow? with
  | true, some row => Conversion.refused engine text (.ofName row.target.name)
  | _, _ => []

/-- What an event gives back. Only Enter in an open editor converts. -/
def InspectorPanel.refused (p : InspectorPanel) (engine : σ) (input : Input) (bounds : CellRect) :
    List Answer :=
  match input.position?, p.focused, p.editor with
  | none, true, some field =>
      let (result, field) := field.handle input (p.valueRect (listRect bounds) p.model.selected)
      if input ≠ .escape ∧ result = .submit then p.model.refused engine field.text else []
  | _, _, _ => []

variable (l : Ledger σ) (held : List Answer) (value : Answer)

theorem Conversion.tally_value (text : List Char) (type : ValueType) :
    (Conversion.value l text type).2.tally held value = l.tally (refused l text type ++ held) value := by
  cases type with
  | integer | real => rfl
  | string =>
      simp only [Conversion.value, refused, string]
      cases Engine.encode l (Text.toUnits text) with
      | error e => rfl
      | ok s =>
          dsimp only
          split
          · exact l.tally_release held value (.string s)
          · rfl

theorem Inspector.tally_commit (i : Inspector) (text : List Char) :
    (i.commit l text).2.2.tally held value = l.tally (i.refused l text ++ held) value := by
  unfold commit refused
  cases i.enabled with
  | false => rfl
  | true =>
      cases i.selectedRow? with
      | none => rfl
      | some row =>
          have converted := Conversion.tally_value l held value text (.ofName row.target.name)
          simp only [if_true]
          cases done : Conversion.value l text (.ofName row.target.name) with
          | mk result later =>
              rw [done] at converted
              cases result with
              | error e => exact converted
              | ok stored =>
                  dsimp only
                  split <;> exact converted

namespace InspectorPanel

variable (p : InspectorPanel)

theorem tally_commit (text : List Char) :
    (p.commit l text).2.tally held value = l.tally (p.model.refused l text ++ held) value := by
  have committed := p.model.tally_commit l held value text
  unfold commit
  split
  all_goals
    rename_i done
    rw [done] at committed
    exact committed

/-- What an event of the inspector adds to the books is what it refuses. -/
theorem tally_handle (input : Input) (bounds : CellRect) :
    (p.handle l input bounds).2.2.tally held value = l.tally (p.refused l input bounds ++ held) value := by
  unfold handle refused
  cases position : input.position? with
  | some place =>
      dsimp only
      split
      · split <;> rfl
      · rfl
  | none =>
      cases p.focused with
      | false => rfl
      | true =>
          cases p.editor with
          | none =>
              simp only [Bool.not_true, Bool.false_eq_true, if_false]
              split <;> rfl
          | some field =>
              simp only [Bool.not_true, Bool.false_eq_true, if_false, typeInto]
              by_cases left : input = .escape
              · simp only [left, if_true, ne_eq, not_true_eq_false, false_and, if_false]
                rfl
              · simp only [left, if_false, ne_eq, not_false_eq_true, true_and]
                split
                · exact tally_commit l held value { p with editor := _ } _
                · rfl

end InspectorPanel

end PocketBasic
