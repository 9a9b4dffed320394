import Mathlib.Data.List.Induction
import PocketBasic.Proofs.Dialog.Acceptance

/-! # The fields of a dialog

Whatever happens to a dialog, one of its fields has the keyboard afterwards, and what happens to a field is an event
or a paste. So a property of texts and cursors that events and pastes keep is one that all fields have, all along.
-/

namespace PocketBasic

/-- What holds at the start and is kept by each operation holds after any of the first operations. -/
theorem forall_prefix {α : Type} {ops : List α} {Q : List α → Prop} (start : Q [])
    (step : ∀ done op, done ++ [op] <+: ops → Q done → Q (done ++ [op])) : ∀ done, done <+: ops → Q done := by
  intro done first
  induction done using List.reverseRecOn with
  | nil => exact start
  | append_singleton done op ih => exact step done op first (ih ((List.prefix_append done [op]).trans first))

theorem exists_prefix_of_mem {α : Type} {ops : List α} {op : α} (member : op ∈ ops) : ∃ done, done ++ [op] <+: ops := by
  obtain ⟨done, rest, rfl⟩ := List.append_of_mem member
  exact ⟨done, rest, by simp⟩

theorem Session.length_convertAll {σ : Type} [Engine σ] (engine : σ) (slots : List Slot) (texts : List (List Char)) :
    (convertAll engine slots texts).1.length = slots.length := by
  induction slots generalizing engine texts with
  | nil => rfl
  | cons slot rest ih => exact congrArg (· + 1) (ih _ _)

/-- A call of a session leaves it with as many slots as it had. -/
theorem Session.length_call {σ : Type} [Engine σ] (s : Session) (engine : σ) (c : Call) :
    (s.call engine c).1.slots.length = s.slots.length := by
  cases c with
  | finish index text =>
      simp only [call, finish]
      cases s.state with
      | accepted | rejected => rfl
      | editing =>
          cases s.slots[index]? with
          | none => rfl
          | some slot => exact List.length_set
  | submit texts =>
      simp only [call, submit]
      cases s.state with
      | accepted | rejected => rfl
      | editing => exact length_convertAll engine s.slots texts
  | cancel =>
      simp only [call, cancel]
      cases s.state with
      | accepted => rfl
      | editing | rejected => exact List.length_map _

namespace InputDialog

/-- What happens to a dialog. An event comes with the rig as it then is, and with the place of the dialog. -/
inductive Operation (σ : Type) where
  | event (engine : σ) (input : Input) (bounds : CellRect)
  | paste (text : List Char)

variable {σ : Type} [Engine σ]

/-- The dialog after an operation. -/
def perform (d : InputDialog) : Operation σ → InputDialog
  | .event engine input bounds => (d.handle engine input bounds).2.1
  | .paste text => d.paste text

/-- The dialog after operations, in turn. -/
def performAll (d : InputDialog) (ops : List (Operation σ)) : InputDialog := ops.foldl perform d

/-- The keyboard is in one of the fields, which have a slot each, and all of them have the property. -/
structure Keyed (P : TextField → Prop) (d : InputDialog) : Prop where
  slots : d.session.slots.length = d.fields.length
  inside : d.focus < d.fields.length
  keyboard : d.HasKeyboard d.focus
  fields : ∀ f ∈ d.fields, P f

variable {P : TextField → Prop} {d : InputDialog} {index : Nat} {engine : σ} {input : Input} {bounds : CellRect}
  {ops : List (Operation σ)} {op : Operation σ}

theorem performAll_concat (ops : List (Operation σ)) (op : Operation σ) :
    d.performAll (ops ++ [op]) = (d.performAll ops).perform op := by
  simp [performAll]

namespace Keyed

theorem ofRequest {r : Request} (asks : r.fields ≠ []) (empty : ∀ focused, P { TextField.empty with focused }) :
    Keyed P (ofRequest r) := by
  have standing := Standing.ofRequest asks
  refine ⟨?_, standing.inside, standing.keyboard, fun f member => ?_⟩
  · rw [standing.length, ← standing.slots, List.length_map]
  · obtain ⟨i, _, rfl⟩ := List.mem_map.mp member
    exact empty _

/-- The field with the keyboard takes keys. -/
theorem exists_focused (keyed : Keyed P d) : ∃ f, d.fields[d.focus]? = some f ∧ f.focused = true := by
  obtain ⟨f, here⟩ : ∃ f, d.fields[d.focus]? = some f := ⟨_, List.getElem?_eq_getElem keyed.inside⟩
  exact ⟨f, here, by simpa using keyed.keyboard.2 _ f here⟩

theorem withSession (keyed : Keyed P d) {session : Session} (same : session.slots.length = d.session.slots.length) :
    Keyed P { d with session } :=
  ⟨same.trans keyed.slots, keyed.inside, keyed.keyboard, keyed.fields⟩

theorem updateField (keyed : Keyed P d) {change : TextField → TextField}
    (keeps : ∀ f, d.fields[index]? = some f → (change f).focused = f.focused ∧ P (change f)) :
    Keyed P (d.updateField index change) := by
  have length : (d.updateField index change).fields.length = d.fields.length := List.length_modify ..
  have old {i : Nat} {f : TextField} (here : (d.updateField index change).fields[i]? = some f) :
      ∃ before, d.fields[i]? = some before ∧ f.focused = before.focused ∧ P f := by
    rw [getElem?_updateField] at here
    obtain ⟨before, found, rfl⟩ := Option.map_eq_some_iff.mp here
    refine ⟨before, found, ?_⟩
    split
    · rename_i changed
      exact keeps before (changed ▸ found)
    · exact ⟨rfl, keyed.fields before (List.mem_of_getElem? found)⟩
  refine ⟨keyed.slots.trans length.symm, length.symm ▸ keyed.inside, ⟨rfl, fun i f here => ?_⟩, fun f member => ?_⟩
  · obtain ⟨before, found, same, -⟩ := old here
    exact same.trans (keyed.keyboard.2 i before found)
  · obtain ⟨i, here⟩ := List.mem_iff_getElem?.mp member
    obtain ⟨-, -, -, holds⟩ := old here
    exact holds

theorem paste (keyed : Keyed P d) {text : List Char}
    (keeps : ∀ f, d.fields[d.focus]? = some f → P (f.insertText text)) : Keyed P (d.paste text) :=
  keyed.updateField fun f here => ⟨rfl, keeps f here⟩

theorem outcome (keyed : Keyed P d) : Keyed P d.outcome.2 := by
  unfold InputDialog.outcome
  split
  · refine keyed.withSession ?_
    unfold Session.take
    split
    · exact List.length_map _
    · rfl
  · exact keyed
  · exact keyed

theorem cancel (keyed : Keyed P d) (engine : σ) : Keyed P (d.cancel engine).2.1 :=
  (keyed.withSession (d.session.length_call engine .cancel)).outcome

theorem handleField (keyed : Keyed P d)
    (keeps : ∀ f ∈ d.fields, ∀ rect : CellRect, rect.width = bounds.width - 4 → P (f.handle input rect).2)
    {f : TextField} (here : d.fields[index]? = some f) :
    Keyed P (d.updateField index fun _ => (f.handle input (d.fieldRect bounds index)).2) := by
  refine keyed.updateField fun g there => ?_
  cases here.symm.trans there
  exact ⟨f.focused_handle _ _, keeps f (List.mem_of_getElem? here) _ rfl⟩

section Focus

variable (keyed : Keyed P d) (blind : ∀ f focused, P f → P { f with focused })

include keyed blind

theorem setFocus (below : index < d.fields.length) : Keyed P (d.setFocus index) := by
  obtain ⟨keyboard, -, length⟩ := setFocus_moves keyed.keyboard index
  refine ⟨keyed.slots.trans length.symm, length.symm ▸ below, keyboard, fun f member => ?_⟩
  obtain ⟨i, here⟩ := List.mem_iff_getElem?.mp member
  have here : ((d.updateField d.focus fun f => { f with focused := false }).updateField index
      fun f => { f with focused := true }).fields[i]? = some f := here
  rw [getElem?_updateField, getElem?_updateField, Option.map_map] at here
  obtain ⟨old, found, rfl⟩ := Option.map_eq_some_iff.mp here
  have before := keyed.fields old (List.mem_of_getElem? found)
  dsimp only [Function.comp]
  split <;> split
  · exact blind _ _ (blind _ _ before)
  · exact blind _ _ before
  · exact blind _ _ before
  · exact before

theorem moveFocus (engine : σ) (index : Nat) : Keyed P (d.moveFocus engine index).1 := by
  obtain ⟨f, here, -⟩ := keyed.exists_focused
  have left := keyed.withSession (d.session.length_call engine (.finish d.focus f.text))
  unfold InputDialog.moveFocus
  simp only [here]
  split
  · exact left.setFocus blind (Nat.mod_lt _ (Nat.zero_lt_of_lt keyed.inside))
  · exact left

theorem submit (engine : σ) : Keyed P (d.submit engine).1 := by
  have left := keyed.withSession (d.session.length_call engine (.submit (d.fields.map (·.text))))
  unfold InputDialog.submit
  dsimp only
  split
  · split
    · rename_i index fault
      have below := (List.findIdx?_eq_some_iff_getElem.mp fault).1
      exact left.setFocus blind (Nat.lt_of_lt_of_eq below left.slots)
    · exact left
  · exact left

variable (keeps : ∀ f ∈ d.fields, ∀ rect : CellRect, rect.width = bounds.width - 4 → P (f.handle input rect).2)

include keeps

theorem clickField (engine : σ) : Keyed P (d.clickField engine input bounds).1 := by
  unfold InputDialog.clickField
  dsimp only
  split
  · rename_i f index found
    have clicked := keyed.handleField keeps (List.mem_zipIdx_iff_getElem?.mp (List.mem_of_find?_eq_some found))
    split
    · exact clicked
    · exact clicked.moveFocus blind engine index
  · exact keyed

theorem typeInto (engine : σ) : Keyed P (d.typeInto engine input bounds).1 := by
  unfold InputDialog.typeInto
  split
  · exact keyed
  · rename_i f here
    have typed := keyed.handleField keeps here
    dsimp only
    split
    · split
      · exact typed.submit blind engine
      · exact typed.moveFocus blind engine _
    · exact typed

theorem edit (engine : σ) : Keyed P (d.edit engine input bounds).1 := by
  unfold InputDialog.edit
  split
  · exact keyed.submit blind engine
  · exact keyed.moveFocus blind engine _
  · exact keyed.moveFocus blind engine _
  · exact keyed.moveFocus blind engine _
  · exact keyed.moveFocus blind engine _
  · split
    · exact keyed.submit blind engine
    · exact keyed.clickField blind keeps engine
  · exact keyed.typeInto blind keeps engine

/-- An event keeps what each field keeps in handling it. -/
theorem handle (engine : σ) : Keyed P (d.handle engine input bounds).2.1 := by
  unfold InputDialog.handle
  split
  · exact keyed
  · split
    · exact keyed.cancel engine
    · exact (keyed.edit blind keeps engine).outcome

end Focus

/-- An operation keeps what the fields keep in handling events, and the one with the keyboard in taking in what is
    pasted. -/
theorem perform (keyed : Keyed P d) (blind : ∀ f focused, P f → P { f with focused })
    (events : ∀ engine input bounds, op = .event engine input bounds →
      ∀ f, P f → ∀ rect : CellRect, rect.width = bounds.width - 4 → P (f.handle input rect).2)
    (pastes : ∀ text, op = .paste text → ∀ f, d.fields[d.focus]? = some f → P f → P (f.insertText text)) :
    Keyed P (d.perform op) := by
  cases op with
  | event engine input bounds =>
      exact keyed.handle blind (fun f member => events engine input bounds rfl f (keyed.fields f member)) engine
  | paste text =>
      exact keyed.paste fun f here => pastes text rfl f here (keyed.fields f (List.mem_of_getElem? here))

/-- A character goes into the field with the keyboard. -/
theorem handle_char {f : TextField} (keyed : Keyed P d) (here : d.fields[d.focus]? = some f) (engine : σ) (c : Char)
    (bounds : CellRect) :
    (d.handle engine (.char c) bounds).2.1.fields[d.focus]? =
      some ((f.insertChar c).showCursor (bounds.width - 4)) := by
  have focused : f.focused = true := by simpa using keyed.keyboard.2 _ f here
  have held : d.fields.isEmpty = false := by
    simpa using List.ne_nil_of_length_pos (Nat.zero_lt_of_lt keyed.inside)
  have typed : f.handle (.char c) (d.fieldRect bounds d.focus) =
      (.consumed, (f.insertChar c).showCursor (bounds.width - 4)) := f.handle_char _ focused c
  have edited : d.edit engine (.char c) bounds =
      (d.updateField d.focus fun _ => (f.insertChar c).showCursor (bounds.width - 4), engine) := by
    simp [InputDialog.edit, InputDialog.typeInto, here, typed]
  have fields (d : InputDialog) : d.outcome.2.fields = d.fields := by
    unfold InputDialog.outcome
    split <;> rfl
  simp only [InputDialog.handle, held, isCancel, edited, Bool.false_eq_true, if_false, fields]
  rw [getElem?_updateField, here, Option.map_some, if_pos rfl]

end Keyed

end InputDialog

end PocketBasic
