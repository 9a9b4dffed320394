import PocketBasic.Proofs.Dialog.Accounts
import PocketBasic.View.InputDialog

/-! # What an event asks of the session

An event of the dialog comes to at most one call of its session; everything else it does is to the fields and
the keyboard. What the session says afterwards is what the owner of the dialog hears: nothing while it is
edited, the values once it is accepted, and a cancellation.
-/

namespace PocketBasic

/-- Makes a call, if there is one. -/
def Session.callIf {σ : Type} [Engine σ] (s : Session) (engine : σ) : Option Call → Session × σ
  | none => (s, engine)
  | some c => s.call engine c

/-- The values that come with an outcome. -/
def DialogOutcome.values : DialogOutcome → List Answer
  | .accepted values => values
  | _ => []

namespace InputDialog

variable (d : InputDialog)

/-- The call that leaving the field with the keyboard makes. -/
def finishCall : Session.Call :=
  .finish d.focus (match d.fields[d.focus]? with
    | some f => f.text
    | none => [])

def submitCall : Session.Call := .submit (d.fields.map (·.text))

/-- A click into another field leaves the one with the keyboard. -/
def clickCall? (input : Input) (bounds : CellRect) : Option Session.Call :=
  let takes := fun (f, index) => (TextField.handle f input (d.fieldRect bounds index)).1 = .focus
  match d.fields.zipIdx.find? takes with
  | some (f, index) =>
      let d := d.updateField index fun _ => (f.handle input (d.fieldRect bounds index)).2
      if index = d.focus then none else some d.finishCall
  | none => none

/-- Enter leaves the field, and submits from the last one. -/
def typeCall? (input : Input) (bounds : CellRect) : Option Session.Call :=
  match d.fields[d.focus]? with
  | none => none
  | some f =>
      let (result, f) := f.handle input (d.fieldRect bounds d.focus)
      let d := d.updateField d.focus fun _ => f
      if result = .submit then
        if d.focus + 1 = d.fields.length then some d.submitCall else some d.finishCall
      else none

def editCall? (input : Input) (bounds : CellRect) : Option Session.Call :=
  match input with
  | .ctrlEnter => some d.submitCall
  | .tab | .cursorDown | .shiftTab | .cursorUp => some d.finishCall
  | .click row col =>
      if (okRect bounds).contains row col then some d.submitCall else d.clickCall? input bounds
  | _ => d.typeCall? input bounds

/-- The call that an event makes. -/
def call? (input : Input) (bounds : CellRect) : Option Session.Call :=
  if d.fields.isEmpty then none
  else if isCancel input bounds then some .cancel
  else d.editCall? input bounds

variable {σ : Type} [Engine σ] (engine : σ)

/-- A dialog and the rig as a call of the session leaves them. -/
def Makes (call : Option Session.Call) (state : InputDialog × σ) : Prop :=
  (state.1.session, state.2) = d.session.callIf engine call

theorem makes_moveFocus (index : Nat) : d.Makes engine (some d.finishCall) (d.moveFocus engine index) := by
  unfold moveFocus Makes finishCall
  generalize d.fields[d.focus]? = field
  cases field with
  | none | some f =>
      dsimp only
      split <;> rfl

theorem makes_submit : d.Makes engine (some d.submitCall) (d.submit engine) := by
  unfold submit Makes
  dsimp only
  split
  · split <;> rfl
  · rfl

theorem makes_clickField (input : Input) (bounds : CellRect) :
    d.Makes engine (d.clickCall? input bounds) (d.clickField engine input bounds) := by
  unfold clickField clickCall?
  dsimp only
  generalize List.find? _ d.fields.zipIdx = found
  cases found with
  | none => rfl
  | some entry =>
      obtain ⟨f, index⟩ := entry
      dsimp only
      by_cases focused : index = (d.updateField index fun _ => (f.handle input (d.fieldRect bounds index)).2).focus
      · rw [if_pos focused, if_pos focused]
        rfl
      · rw [if_neg focused, if_neg focused]
        exact makes_moveFocus _ engine index

theorem makes_entered :
    d.Makes engine (if d.focus + 1 = d.fields.length then some d.submitCall else some d.finishCall)
      (if d.focus + 1 = d.fields.length then d.submit engine else d.moveFocus engine (d.focus + 1)) := by
  by_cases last : d.focus + 1 = d.fields.length
  · rw [if_pos last, if_pos last]
    exact d.makes_submit engine
  · rw [if_neg last, if_neg last]
    exact d.makes_moveFocus engine _

theorem makes_typeInto (input : Input) (bounds : CellRect) :
    d.Makes engine (d.typeCall? input bounds) (d.typeInto engine input bounds) := by
  unfold typeInto typeCall?
  generalize d.fields[d.focus]? = field
  cases field with
  | none => rfl
  | some f =>
      dsimp only
      by_cases entered : (f.handle input (d.fieldRect bounds d.focus)).1 = .submit
      · rw [if_pos entered, if_pos entered]
        exact makes_entered (d.updateField d.focus fun _ => _) engine
      · rw [if_neg entered, if_neg entered]
        rfl

theorem makes_edit (input : Input) (bounds : CellRect) :
    d.Makes engine (d.editCall? input bounds) (d.edit engine input bounds) := by
  cases input with
  | ctrlEnter => exact d.makes_submit engine
  | tab | cursorDown | shiftTab | cursorUp => exact d.makes_moveFocus engine _
  | click row col =>
      simp only [edit, editCall?]
      split
      · exact d.makes_submit engine
      · exact d.makes_clickField engine _ bounds
  | _ => exact d.makes_typeInto engine _ bounds

/-- A dialog without an outcome is still edited, and one that has ended holds nothing. -/
structure Concluded (result : DialogOutcome × InputDialog) : Prop where
  editing : result.1 = .pending → result.2.session.state = .editing
  empty : result.1 ≠ .pending → result.2.session.held = []

theorem Concluded.pending (editing : d.session.state = .editing) : Concluded (.pending, d) :=
  ⟨fun _ => editing, fun ended => absurd rfl ended⟩

/-- After a call of a session that was edited its owner hears how the session stands, and the values of an
    accepted one leave it. -/
theorem outcome_of_call {d : InputDialog} {before : Session} (editing : before.state = .editing)
    {engine : σ} {c : Session.Call} (made : d.session = (before.call engine c).1) :
    d.outcome.1.values ++ d.outcome.2.session.held = d.session.held ∧ Concluded d.outcome := by
  unfold outcome
  cases state : d.session.state with
  | editing => exact ⟨rfl, .pending d state⟩
  | rejected =>
      have empty := Session.held_of_rejected editing engine c (made ▸ state)
      rw [← made] at empty
      exact ⟨rfl, (fun pending => by cases pending), fun _ => empty⟩
  | accepted =>
      have valid := Session.valid_of_call editing engine c (made ▸ state)
      rw [← made] at valid
      have emptied := Session.held_emptied d.session.slots
      simp only [Session.take, state, Session.mapM_value_of_valid valid]
      refine ⟨?_, (fun pending => by cases pending), fun _ => emptied⟩
      rw [Session.held, emptied, List.append_nil]
      rfl

/-- The values that a call obtains, if there is one. -/
def obtainedBy (d : InputDialog) (engine : σ) : Option Session.Call → List Answer
  | some c => d.session.obtained engine c
  | none => []

/-- The values that an event of the dialog obtains. -/
def obtained (d : InputDialog) (engine : σ) (input : Input) (bounds : CellRect) : List Answer :=
  d.obtainedBy engine (d.call? input bounds)

theorem tally_outcome {d other : InputDialog} (editing : d.session.state = .editing) {l later : Ledger σ}
    {call : Option Session.Call} (made : d.Makes l call (other, later)) :
    (∀ value, later.tally (other.outcome.1.values ++ other.outcome.2.session.held) value =
        l.tally (d.session.held ++ d.obtainedBy l call) value) ∧
      Concluded other.outcome := by
  cases call with
  | none =>
      obtain ⟨session, rig⟩ : other.session = d.session ∧ later = l := Prod.mk.inj made
      have still : other.outcome = (.pending, other) := by
        rw [outcome, session, editing]
      rw [still, rig]
      refine ⟨fun value => ?_, .pending other (session ▸ editing)⟩
      simp only [DialogOutcome.values, obtainedBy, List.nil_append, List.append_nil, session]
  | some c =>
      obtain ⟨session, rig⟩ : other.session = (d.session.call l c).1 ∧ later = (d.session.call l c).2 :=
        Prod.mk.inj made
      obtain ⟨kept, concluded⟩ := outcome_of_call editing session
      refine ⟨fun value => ?_, concluded⟩
      rw [kept, session, rig]
      exact Session.tally_call l value d.session c

/-- An event of a dialog that is edited: every value that it obtains is given back, handed to the owner, or in
    a slot. -/
theorem tally_handle {d : InputDialog} (editing : d.session.state = .editing) (l : Ledger σ)
    (input : Input) (bounds : CellRect) :
    let result := d.handle l input bounds
    (∀ value, result.2.2.tally (result.1.values ++ result.2.1.session.held) value =
        l.tally (d.session.held ++ d.obtained l input bounds) value) ∧
      Concluded (result.1, result.2.1) := by
  unfold handle obtained call?
  split
  · refine ⟨fun value => ?_, .pending d editing⟩
    simp only [DialogOutcome.values, obtainedBy, List.nil_append, List.append_nil]
  · split
    · have cancelled : d.Makes l (some .cancel)
          ({ d with session := (d.session.cancel l).1 }, (d.session.cancel l).2) := rfl
      exact tally_outcome editing cancelled
    · exact tally_outcome editing (d.makes_edit l input bounds)

end InputDialog

end PocketBasic
