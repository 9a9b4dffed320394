import PocketBasic.Playback
import PocketBasic.Proofs.Dialog.Calls
import PocketBasic.Proofs.Dialog.Kinds

/-! # Acceptance

A dialog converts a field when the keyboard leaves it, and the value waits in its slot while the user goes on. What
is handed over in the end does not come from there: the event that ends the dialog converts the texts that stand in
the fields, all of them, and puts the values in place of those that waited. If some text does not convert, the
dialog shows which, keeps the values of the others, and puts the keyboard into the first field at fault.
-/

namespace PocketBasic

/-- What a conversion makes of a slot. -/
def Slot.converted (kind : FieldKind) : Except FieldError Answer → Slot
  | .ok value => ⟨kind, some value, none⟩
  | .error e => ⟨kind, none, some e⟩

/-- The texts are converted one after the other, each to the kind beside it. Before each conversion the value that
    the field held goes back. -/
inductive Conversion.InTurn {σ : Type} [Engine σ] :
    σ → List FieldKind → List (Option Answer) → List (List Char) → List (Except FieldError Answer) → σ → Prop
  | nil {engine : σ} : InTurn engine [] [] [] [] engine
  | cons {engine later : σ} {kind : FieldKind} {kinds : List FieldKind} {old : Option Answer}
      {olds : List (Option Answer)} {text : List Char} {texts : List (List Char)}
      {results : List (Except FieldError Answer)} :
      InTurn (Conversion.answer (Slot.giveBack engine old) text kind).2 kinds olds texts results later →
      InTurn engine (kind :: kinds) (old :: olds) (text :: texts)
        ((Conversion.answer (Slot.giveBack engine old) text kind).1 :: results) later

namespace InputDialog

/-- A dialog for a request after any events and pastes, none of which has ended it. -/
inductive Opened (σ : Type) [Engine σ] (r : Request) : InputDialog → Prop
  | start : Opened σ r (ofRequest r)
  | event {d : InputDialog} (engine : σ) (input : Input) (bounds : CellRect) :
      Opened σ r d → (d.handle engine input bounds).1 = .pending → Opened σ r (d.handle engine input bounds).2.1
  | paste {d : InputDialog} (text : List Char) : Opened σ r d → Opened σ r (d.paste text)

/-- The event asks for everything to be converted: Ctrl+Enter, a click on OK, or Enter in the last field. -/
def Submits (d : InputDialog) (input : Input) (bounds : CellRect) : Prop :=
  input = .ctrlEnter ∨ (∃ row col, input = .click row col ∧ (okRect bounds).contains row col = true) ∨
    input = .enter ∧ d.focus + 1 = d.fields.length

/-- The texts in the fields. -/
def texts (d : InputDialog) : List (List Char) := d.fields.map (·.text)

/-- The keyboard is in one field. -/
def HasKeyboard (d : InputDialog) (index : Nat) : Prop :=
  d.focus = index ∧ ∀ i f, d.fields[i]? = some f → f.focused = decide (i = index)

/-- The dialog is edited, with a slot and a text for each field and the keyboard in one of them. -/
structure Standing (kinds : List FieldKind) (d : InputDialog) : Prop where
  editing : d.session.state = .editing
  slots : d.session.slots.map (·.kind) = kinds
  length : d.fields.length = kinds.length
  inside : d.focus < d.fields.length
  keyboard : d.HasKeyboard d.focus

end InputDialog

/-! ## Converting slots -/

section Converting

variable {σ : Type} [Engine σ] {kinds : List FieldKind} {results : List (Except FieldError Answer)}

theorem Slot.convert_eq (s : Slot) (engine : σ) (text : List Char) :
    s.convert engine text = (converted s.kind (Conversion.answer (giveBack engine s.value) text s.kind).1,
      (Conversion.answer (giveBack engine s.value) text s.kind).2) := by
  unfold convert
  split <;> rename_i same <;> rw [same] <;> rfl

/-- Submitting converts the texts in turn, and the slots show the results. -/
theorem Session.convertAll_inTurn (engine : σ) {slots : List Slot} {texts : List (List Char)}
    (length : texts.length = slots.length) :
    ∃ results, (convertAll engine slots texts).1 = List.zipWith Slot.converted (slots.map (·.kind)) results ∧
      Conversion.InTurn engine (slots.map (·.kind)) (slots.map (·.value)) texts results
        (convertAll engine slots texts).2 := by
  induction slots generalizing engine texts with
  | nil =>
      obtain rfl := List.length_eq_zero_iff.mp length
      exact ⟨[], rfl, .nil⟩
  | cons slot rest ih =>
      obtain ⟨text, others, rfl⟩ := List.exists_cons_of_length_eq_add_one length
      obtain ⟨results, slots, inTurn⟩ := ih
        (Conversion.answer (Slot.giveBack engine slot.value) text slot.kind).2 (Nat.succ.inj length)
      simp only [convertAll, Slot.convert_eq, List.headD_cons, List.tail_cons, slots, List.map_cons]
      exact ⟨_ :: results, rfl, .cons inTurn⟩

theorem Conversion.InTurn.length {engine later : σ} {olds : List (Option Answer)} {texts : List (List Char)}
    (inTurn : InTurn engine kinds olds texts results later) : results.length = kinds.length := by
  induction inTurn with
  | nil => rfl
  | cons _ ih => exact congrArg (· + 1) ih

theorem Slot.isValid_converted (kind : FieldKind) (result : Except FieldError Answer) :
    (converted kind result).isValid = result.isOk := by
  cases result <;> rfl

/-- Slots whose conversions all succeeded hold the values. -/
theorem Slot.mapM_value_converted {values : List Answer} (length : values.length = kinds.length) :
    (List.zipWith converted kinds (values.map .ok)).mapM (·.value) = some values := by
  induction values generalizing kinds with
  | nil => cases kinds <;> rfl
  | cons value rest ih =>
      obtain ⟨kind, others, rfl⟩ := List.exists_cons_of_length_eq_add_one length.symm
      have more := ih (Nat.succ.inj length)
      simp only [List.map_cons, List.zipWith_cons_cons, List.mapM_cons, more]
      rfl

theorem Slot.kind_converted (kind : FieldKind) (result : Except FieldError Answer) :
    (converted kind result).kind = kind := by
  cases result <;> rfl

theorem map_kind_converted (length : results.length = kinds.length) :
    (List.zipWith Slot.converted kinds results).map (·.kind) = kinds := by
  induction results generalizing kinds with
  | nil => exact (List.length_eq_zero_iff.mp length.symm).symm ▸ rfl
  | cons result rest ih =>
      obtain ⟨kind, others, rfl⟩ := List.exists_cons_of_length_eq_add_one length.symm
      rw [List.zipWith_cons_cons, List.map_cons, Slot.kind_converted, ih (Nat.succ.inj length)]

theorem all_isValid_converted (length : results.length = kinds.length) :
    (List.zipWith Slot.converted kinds results).all (·.isValid) = results.all (·.isOk) := by
  induction results generalizing kinds with
  | nil => cases kinds <;> rfl
  | cons result rest ih =>
      obtain ⟨kind, others, rfl⟩ := List.exists_cons_of_length_eq_add_one length.symm
      rw [List.zipWith_cons_cons, List.all_cons, List.all_cons, Slot.isValid_converted, ih (Nat.succ.inj length)]

theorem findIdx?_isValid_converted (length : results.length = kinds.length) :
    (List.zipWith Slot.converted kinds results).findIdx? (fun slot => !slot.isValid) =
      results.findIdx? fun result => !result.isOk := by
  induction results generalizing kinds with
  | nil => cases kinds <;> rfl
  | cons result rest ih =>
      obtain ⟨kind, others, rfl⟩ := List.exists_cons_of_length_eq_add_one length.symm
      rw [List.zipWith_cons_cons, List.findIdx?_cons, List.findIdx?_cons, Slot.isValid_converted,
        ih (Nat.succ.inj length)]

theorem exists_map_ok (all : results.all (·.isOk) = true) : ∃ values : List Answer, results = values.map .ok := by
  induction results with
  | nil => exact ⟨[], rfl⟩
  | cons result rest ih =>
      obtain ⟨first, others⟩ := List.all_cons.symm.trans all |> Bool.and_eq_true_iff.mp
      obtain ⟨values, rfl⟩ := ih others
      cases result with
      | ok value => exact ⟨value :: values, rfl⟩
      | error => cases first

end Converting

/-! ## Fields and the keyboard -/

namespace TextField

variable (f : TextField) (input : Input) (bounds : CellRect)

theorem focused_edit {f edited : TextField} {input : Input} (same : f.edit? input = some edited) :
    edited.focused = f.focused := by
  cases input with
  | char | delete | cursorLeft | cursorRight | home | «end» =>
      cases same
      rfl
  | backspace =>
      cases same
      unfold backspace
      split <;> rfl
  | _ => cases same

theorem focused_handle : (f.handle input bounds).2.focused = f.focused := by
  have shown (f : TextField) : (f.showCursor bounds.width).focused = f.focused := by
    unfold showCursor
    split_ifs <;> rfl
  have clicked : (f.click input bounds).2.focused = f.focused := by
    unfold click
    split
    · split <;> rfl
    · rfl
  unfold handle
  split
  · split
    · rfl
    · split
      · rename_i edited
        exact (shown _).trans (focused_edit edited)
      · exact clicked
  · exact clicked

/-- A click does not change the text. -/
theorem text_handle_click (row col : Nat) : (f.handle (.click row col) bounds).2.text = f.text := by
  have clicked : (f.click (.click row col) bounds).2.text = f.text := by
    unfold click
    dsimp only
    split <;> rfl
  unfold handle
  split
  · exact clicked
  · exact clicked

theorem handle_enter (focused : f.focused = true) : f.handle .enter bounds = (.submit, f) := by
  simp [handle, focused]

theorem handle_char (focused : f.focused = true) (c : Char) :
    f.handle (.char c) bounds = (.consumed, (f.insertChar c).showCursor bounds.width) := by
  rw [handle, if_pos focused, if_neg nofun]
  rfl

/-- Only Enter submits. -/
theorem enter_of_submit (submitted : (f.handle input bounds).1 = .submit) :
    input = .enter ∧ (f.handle input bounds).2 = f := by
  have clicked : (f.click input bounds).1 ≠ .submit := by
    unfold click
    split
    · split <;> nofun
    · nofun
  unfold handle at submitted ⊢
  split at submitted
  · rename_i focused
    split at submitted
    · rename_i enter
      rw [if_pos focused, if_pos enter]
      exact ⟨enter, rfl⟩
    · split at submitted
      · cases submitted
      · exact absurd submitted clicked
  · exact absurd submitted clicked

end TextField

namespace InputDialog

variable {σ : Type} [Engine σ] {kinds : List FieldKind} {d other : InputDialog} {index : Nat}

theorem getElem?_updateField (d : InputDialog) (index : Nat) (change : TextField → TextField) (i : Nat) :
    (d.updateField index change).fields[i]? = d.fields[i]?.map fun f => if index = i then change f else f :=
  List.getElem?_modify ..

theorem updateField_same {change : TextField → TextField} (same : ∀ f, d.fields[index]? = some f → change f = f) :
    d.updateField index change = d := by
  have fields : d.fields.modify index change = d.fields := by
    refine List.ext_getElem? fun i => ?_
    rw [List.getElem?_modify]
    by_cases here : index = i
    · subst here
      cases h : d.fields[index]? with
      | none => rfl
      | some f => simp [same f h]
    · simp [here]
  rw [updateField, fields]

theorem texts_updateField {change : TextField → TextField}
    (same : ∀ f, d.fields[index]? = some f → (change f).text = f.text) :
    (d.updateField index change).texts = d.texts := by
  refine List.ext_getElem? fun i => ?_
  rw [texts, texts, List.getElem?_map, List.getElem?_map, getElem?_updateField]
  by_cases here : index = i
  · subst here
    cases h : d.fields[index]? with
    | none => rfl
    | some f => simp [same f h]
  · simp [here]

namespace Standing

/-- What happens to one field leaves the dialog standing, unless it moves the keyboard. -/
theorem updateField (standing : Standing kinds d) {change : TextField → TextField}
    (same : ∀ f, d.fields[index]? = some f → (change f).focused = f.focused) :
    Standing kinds (d.updateField index change) := by
  refine ⟨standing.editing, standing.slots, ?_, ?_, rfl, fun i f here => ?_⟩
  · simpa [InputDialog.updateField] using standing.length
  · simpa [InputDialog.updateField] using standing.inside
  · rw [getElem?_updateField] at here
    obtain ⟨old, found, rfl⟩ := Option.map_eq_some_iff.mp here
    rw [show (d.updateField index change).focus = d.focus from rfl, ← standing.keyboard.2 i old found]
    split
    · rename_i here
      subst here
      exact same old found
    · rfl

theorem ofRequest {r : Request} (asks : r.fields ≠ []) : Standing r.fields (ofRequest r) := by
  refine ⟨rfl, (Session.fitting_ofRequest r).kinds, by simp [InputDialog.ofRequest], ?_, rfl, fun i f here => ?_⟩
  · simpa [InputDialog.ofRequest] using List.length_pos_of_ne_nil asks
  · simp only [InputDialog.ofRequest, List.getElem?_map, Option.map_eq_some_iff] at here
    obtain ⟨k, found, rfl⟩ := here
    obtain ⟨_, rfl⟩ := List.getElem?_eq_some_iff.mp found
    simp only [List.getElem_range]
    rfl

theorem paste (standing : Standing kinds d) (text : List Char) : Standing kinds (d.paste text) :=
  standing.updateField fun _ _ => rfl

end Standing

/-- The keyboard goes to another field, and nothing else changes. -/
theorem setFocus_moves (keyboard : d.HasKeyboard d.focus) (index : Nat) :
    (d.setFocus index).HasKeyboard index ∧ (d.setFocus index).texts = d.texts ∧
      (d.setFocus index).fields.length = d.fields.length := by
  let left := d.updateField d.focus fun f => { f with focused := false }
  refine ⟨⟨rfl, fun i f here => ?_⟩, ?_, by simp [setFocus, updateField]⟩
  · have here : (left.updateField index fun f => { f with focused := true }).fields[i]? = some f := here
    rw [getElem?_updateField, getElem?_updateField, Option.map_map] at here
    obtain ⟨old, found, rfl⟩ := Option.map_eq_some_iff.mp here
    have before := keyboard.2 i old found
    dsimp only [Function.comp]
    grind
  · calc (d.setFocus index).texts
      _ = left.texts := texts_updateField fun _ _ => rfl
      _ = d.texts := texts_updateField fun _ _ => rfl

/-- A dialog goes on with other slots of the same kinds, and with the keyboard in any of its fields. -/
theorem Standing.goes_on (standing : Standing kinds d) {slots : List Slot} (same : slots.map (·.kind) = kinds)
    (below : index < d.fields.length) :
    Standing kinds ({ d with session := { d.session with slots, state := .editing } }.setFocus index) := by
  obtain ⟨keyboard, -, fields⟩ := setFocus_moves
    (d := { d with session := { d.session with slots, state := .editing } }) standing.keyboard index
  refine ⟨rfl, same, fields.trans standing.length, ?_, keyboard⟩
  rw [fields]
  exact below

/-! ## Ways to acceptance -/

/-- The dialog has accepted the values of its texts, which were all converted to get there. -/
structure Accepts (kinds : List FieldKind) (d : InputDialog) (engine : σ) (values : List Answer)
    (after : InputDialog × σ) : Prop where
  state : after.1.session.state = .accepted
  slots : after.1.session.slots = List.zipWith Slot.converted kinds (values.map .ok)
  inTurn : Conversion.InTurn engine kinds (d.session.slots.map (·.value)) d.texts (values.map .ok) after.2
  texts : after.1.texts = d.texts

/-- An event that does not cancel submits, leaves a field, or does something to the text or the cursor of one. -/
inductive Edits (kinds : List FieldKind) (d : InputDialog) (engine : σ) : InputDialog × σ → Prop
  | submitted : Edits kinds d engine (d.submit engine)
  | left {other : InputDialog} (index : Nat) : Standing kinds other → other.session = d.session →
      other.texts = d.texts → Edits kinds d engine (other.moveFocus engine index)
  | changed {other : InputDialog} : Standing kinds other → other.session = d.session →
      Edits kinds d engine (other, engine)

namespace Standing

variable (standing : Standing kinds d) (engine : σ)

include standing

theorem length_texts : d.texts.length = d.session.slots.length := by
  rw [texts, List.length_map, standing.length, ← standing.slots, List.length_map]

/-- Submitting converts every text. The dialog accepts the values if there is one for each; otherwise the slots show
    which text has none, and the keyboard is in the first of those fields. -/
theorem submit : ∃ results,
    Conversion.InTurn engine kinds (d.session.slots.map (·.value)) d.texts results (d.submit engine).2 ∧
      (d.submit engine).1.texts = d.texts ∧
      (d.submit engine).1.session.slots = List.zipWith Slot.converted kinds results ∧
      if results.all (·.isOk) then (d.submit engine).1.session.state = .accepted
      else Standing kinds (d.submit engine).1 ∧
        ∃ index, results.findIdx? (fun result => !result.isOk) = some index ∧
          (d.submit engine).1.HasKeyboard index := by
  obtain ⟨results, slots, inTurn⟩ := Session.convertAll_inTurn engine standing.length_texts
  rw [standing.slots] at slots inTurn
  have length := inTurn.length
  have submitted : d.session.submit engine d.texts = ({ d.session with
      slots := List.zipWith Slot.converted kinds results
      state := if results.all (·.isOk) then .accepted else .editing },
      (Session.convertAll engine d.session.slots d.texts).2) := by
    simp only [Session.submit, standing.editing, slots, all_isValid_converted length]
  refine ⟨results, ?_⟩
  unfold InputDialog.submit
  rw [show d.fields.map (·.text) = d.texts from rfl, submitted]
  by_cases all : results.all (·.isOk) = true
  · simp only [all, if_true, reduceCtorEq, if_false]
    exact ⟨inTurn, rfl, trivial, trivial⟩
  · obtain ⟨index, first⟩ : ∃ index, results.findIdx? (fun result => !result.isOk) = some index := by
      refine Option.isSome_iff_exists.mp ?_
      simpa [List.findIdx?_isSome] using all
    have below : index < d.fields.length := by
      have inside := (List.findIdx?_eq_some_iff_getElem.mp first).1
      rw [standing.length]
      omega
    have goes := standing.goes_on (map_kind_converted length) below
    simp only [all, findIdx?_isValid_converted length, first]
    exact ⟨inTurn, (setFocus_moves standing.keyboard index).2.1, rfl, goes, index, rfl, goes.keyboard⟩

/-- The field with the keyboard has a slot of its kind. -/
theorem exists_focused : ∃ slot f, d.session.slots[d.focus]? = some slot ∧ d.fields[d.focus]? = some f ∧
    kinds[d.focus]? = some slot.kind := by
  have below : d.focus < d.session.slots.length := by
    rw [← standing.length_texts, texts, List.length_map]
    exact standing.inside
  refine ⟨_, _, List.getElem?_eq_getElem below, List.getElem?_eq_getElem standing.inside, ?_⟩
  rw [← standing.slots, List.getElem?_map, List.getElem?_eq_getElem below, Option.map_some]

/-- If there is one slot it belongs to the field with the keyboard, and that is the only one. -/
theorem alone {slot : Slot} {f : TextField} (inside : d.session.slots[d.focus]? = some slot)
    (here : d.fields[d.focus]? = some f) (one : d.session.slots.length = 1) :
    d.focus = 0 ∧ d.session.slots = [slot] ∧ d.texts = [f.text] ∧ kinds = [slot.kind] := by
  obtain ⟨only, slots⟩ := List.length_eq_one_iff.mp one
  obtain ⟨text, fields⟩ := List.length_eq_one_iff.mp (standing.length_texts.trans one)
  have first : d.focus = 0 := by
    have below := (List.getElem?_eq_some_iff.mp inside).1
    omega
  have there : d.texts[0]? = some f.text := by rw [texts, List.getElem?_map, ← first, here, Option.map_some]
  rw [first, slots] at inside
  rw [fields] at there
  cases inside
  cases there
  exact ⟨first, slots, fields, by rw [← standing.slots, slots, List.map_singleton]⟩

/-- Leaving a field converts its text. If the field is the only one and its text has a value the dialog accepts it;
    otherwise the dialog goes on. -/
theorem moveFocus (index : Nat) :
    (∃ values, Accepts kinds d engine values (d.moveFocus engine index)) ∨
      Standing kinds (d.moveFocus engine index).1 := by
  obtain ⟨slot, f, inside, here, kind⟩ := standing.exists_focused
  unfold InputDialog.moveFocus
  simp only [here, Session.finish, standing.editing, inside, Slot.convert_eq, Slot.isValid_converted]
  generalize converted : Conversion.answer (Slot.giveBack engine slot.value) f.text slot.kind = answer
  obtain ⟨result, later⟩ := answer
  by_cases alone : (result.isOk && decide (d.session.slots.length = 1)) = true
  · left
    obtain ⟨ok, one⟩ := (Bool.and_eq_true _ _).mp alone
    obtain ⟨first, slots, texts, rfl⟩ := standing.alone inside here (of_decide_eq_true one)
    cases result with
    | error => cases ok
    | ok value =>
        have inTurn : Conversion.InTurn engine [slot.kind] [slot.value] [f.text]
            [(Conversion.answer (Slot.giveBack engine slot.value) f.text slot.kind).1]
            (Conversion.answer (Slot.giveBack engine slot.value) f.text slot.kind).2 := .cons .nil
        rw [converted] at inTurn
        refine ⟨[value], ?_⟩
        simp only [first, slots]
        exact ⟨rfl, rfl, by rw [slots, texts]; exact inTurn, rfl⟩
  · right
    have slots : (d.session.slots.set d.focus (Slot.converted slot.kind result)).map (·.kind) = kinds := by
      rw [List.map_set, Slot.kind_converted, standing.slots]
      obtain ⟨bound, same⟩ := List.getElem?_eq_some_iff.mp kind
      rw [← same]
      exact List.set_getElem_self bound
    simp only [alone, Bool.false_eq_true, if_false, if_true]
    exact standing.goes_on slots (Nat.mod_lt _ (Nat.zero_lt_of_lt standing.inside))

theorem edits_clickField (row col : Nat) (bounds : CellRect) :
    Edits kinds d engine (d.clickField engine (.click row col) bounds) := by
  unfold clickField
  dsimp only
  split
  · rename_i f index found
    have here : d.fields[index]? = some f := List.mem_zipIdx_iff_getElem?.mp (List.mem_of_find?_eq_some found)
    -- The click has moved the cursor of the field.
    let change : TextField → TextField := fun _ => (f.handle (.click row col) (d.fieldRect bounds index)).2
    have clicked : Standing kinds (d.updateField index change) := standing.updateField fun g there => by
      rw [here] at there
      cases there
      exact f.focused_handle _ _
    have texts : (d.updateField index change).texts = d.texts := texts_updateField fun g there => by
      rw [here] at there
      cases there
      exact f.text_handle_click _ row col
    split
    · exact .changed clicked rfl
    · exact .left index clicked rfl texts
  · exact .changed standing rfl

/-- Enter does nothing to the field. -/
theorem typeInto_enter (bounds : CellRect) :
    d.typeInto engine .enter bounds =
      if d.focus + 1 = d.fields.length then d.submit engine else d.moveFocus engine (d.focus + 1) := by
  obtain ⟨f, here⟩ : ∃ f, d.fields[d.focus]? = some f := ⟨_, List.getElem?_eq_getElem standing.inside⟩
  have focused : f.focused = true := by simpa using standing.keyboard.2 _ f here
  have same : (d.updateField d.focus fun _ => f) = d :=
    updateField_same fun g there => Option.some.inj (here.symm.trans there)
  unfold typeInto
  simp only [here, TextField.handle_enter f _ focused, same, if_true]

theorem edits_typeInto (input : Input) (bounds : CellRect) :
    Edits kinds d engine (d.typeInto engine input bounds) := by
  by_cases enter : input = .enter
  · rw [enter, typeInto_enter standing]
    split
    · exact .submitted
    · exact .left _ standing rfl rfl
  · unfold typeInto
    split
    · exact .changed standing rfl
    · rename_i f here
      have typed : (f.handle input (d.fieldRect bounds d.focus)).1 ≠ .submit :=
        fun submitted => enter (f.enter_of_submit _ _ submitted).1
      simp only [if_neg typed]
      refine .changed (standing.updateField fun g there => ?_) rfl
      rw [here] at there
      cases there
      exact f.focused_handle _ _

theorem edits_edit (input : Input) (bounds : CellRect) : Edits kinds d engine (d.edit engine input bounds) := by
  cases input with
  | ctrlEnter => exact .submitted
  | tab | cursorDown | shiftTab | cursorUp => exact .left _ standing rfl rfl
  | click row col =>
      simp only [edit]
      split
      · exact .submitted
      · exact edits_clickField standing engine row col bounds
  | _ => exact edits_typeInto standing engine _ bounds

theorem edit_of_submits {input : Input} {bounds : CellRect} (submits : d.Submits input bounds) :
    isCancel input bounds = false ∧ d.edit engine input bounds = d.submit engine := by
  rcases submits with rfl | ⟨row, col, rfl, ok⟩ | ⟨rfl, last⟩
  · exact ⟨rfl, rfl⟩
  · simp [isCancel, edit, ok]
  · exact ⟨rfl, (typeInto_enter standing engine bounds).trans (if_pos last)⟩

end Standing

/-- What an event has made of a dialog: it has accepted values, or it goes on. -/
theorem Edits.settles (standing : Standing kinds d) {engine : σ} {after : InputDialog × σ}
    (edits : Edits kinds d engine after) :
    (∃ values, Accepts kinds d engine values after) ∨ Standing kinds after.1 := by
  cases edits with
  | submitted =>
      obtain ⟨results, inTurn, texts, slots, rest⟩ := standing.submit engine
      split at rest
      · rename_i all
        obtain ⟨values, rfl⟩ := exists_map_ok all
        exact .inl ⟨values, rest, slots, inTurn, texts⟩
      · exact .inr rest.1
  | left index moved session texts =>
      rcases moved.moveFocus engine index with ⟨values, accepts⟩ | goes
      · refine .inl ⟨values, accepts.state, accepts.slots, ?_, accepts.texts.trans texts⟩
        rw [← session, ← texts]
        exact accepts.inTurn
      · exact .inr goes
  | changed standing _ => exact .inr standing

theorem Accepts.outcome {engine : σ} {values : List Answer} {after : InputDialog × σ}
    (accepts : Accepts kinds d engine values after) :
    after.1.outcome.1 = .accepted values ∧ after.1.outcome.2.texts = d.texts := by
  have length : values.length = kinds.length := by simpa using accepts.inTurn.length
  unfold InputDialog.outcome
  simp only [accepts.state, Session.take, accepts.slots, Slot.mapM_value_converted length]
  exact ⟨trivial, accepts.texts⟩

theorem Standing.outcome (standing : Standing kinds d) : d.outcome = (.pending, d) := by
  rw [InputDialog.outcome, standing.editing]

/-- An event of a dialog that goes on: it goes on still, it is cancelled, or it has accepted values. -/
theorem Standing.handle (standing : Standing kinds d) (engine : σ) (input : Input) (bounds : CellRect) :
    let result := d.handle engine input bounds
    (result.1 = .pending ∧ Standing kinds result.2.1) ∨ result.1 = .cancelled ∨
      ∃ values, result.1 = .accepted values ∧ result.2.1.texts = d.texts ∧
        Conversion.InTurn engine kinds (d.session.slots.map (·.value)) d.texts (values.map .ok) result.2.2 := by
  have asks : d.fields.isEmpty = false :=
    List.isEmpty_eq_false_iff_exists_mem.mpr ⟨_, List.getElem_mem standing.inside⟩
  unfold InputDialog.handle
  simp only [asks, Bool.false_eq_true, if_false]
  by_cases cancels : isCancel input bounds = true
  · rw [if_pos cancels]
    right
    left
    simp [InputDialog.cancel, Session.cancel, standing.editing, InputDialog.outcome]
  · simp only [cancels]
    rcases (standing.edits_edit engine input bounds).settles standing with ⟨values, accepts⟩ | goes
    · obtain ⟨outcome, texts⟩ := accepts.outcome
      exact .inr (.inr ⟨values, outcome, texts, accepts.inTurn⟩)
    · left
      rw [goes.outcome]
      exact ⟨rfl, goes⟩

theorem Opened.standing {r : Request} (asks : r.fields ≠ []) (opened : Opened σ r d) : Standing r.fields d := by
  induction opened with
  | start => exact .ofRequest asks
  | event engine input bounds _ pending ih =>
      rcases ih.handle engine input bounds with goes | cancelled | ⟨values, accepted, _⟩
      · exact goes.2
      · rw [pending] at cancelled
        cases cancelled
      · rw [pending] at accepted
        cases accepted
  | paste text _ ih => exact ih.paste text

/-- Values that a dialog hands over are those of the texts in its fields, one for each, and the event that ends the
    dialog has converted them. Ctrl+Enter, OK and Enter in the last field convert every text. The dialog is accepted
    if all of them have a value; otherwise it goes on with the error of each text that has none, the values of the
    others, and the keyboard in the first field at fault. -/
theorem handle_accepts_texts {r : Request} (asks : r.fields ≠ []) (opened : Opened σ r d) (engine : σ) (input : Input)
    (bounds : CellRect) :
    let result := d.handle engine input bounds
    let olds := d.session.slots.map (·.value)
    (∀ values, result.1 = .accepted values → values.length = r.fields.length ∧ result.2.1.texts = d.texts ∧
      Conversion.InTurn engine r.fields olds d.texts (values.map .ok) result.2.2) ∧
    (d.Submits input bounds → ∃ results,
      Conversion.InTurn engine r.fields olds d.texts results result.2.2 ∧ result.2.1.texts = d.texts ∧
        (∀ values, result.1 = .accepted values ↔ results = values.map .ok) ∧
        (results.all (·.isOk) = false → result.1 = .pending ∧ result.2.1.session.state = .editing ∧
          result.2.1.session.slots = List.zipWith Slot.converted r.fields results ∧
          ∃ index, results.findIdx? (fun result => !result.isOk) = some index ∧ result.2.1.HasKeyboard index)) := by
  intro result olds
  have standing := opened.standing asks
  have settled := standing.handle engine input bounds
  refine ⟨fun values accepted => ?_, fun submits => ?_⟩
  · rcases settled with ⟨pending, _⟩ | cancelled | ⟨values', outcome, texts, inTurn⟩
    · cases accepted.symm.trans pending
    · cases accepted.symm.trans cancelled
    · obtain rfl : values = values' := DialogOutcome.accepted.inj (accepted.symm.trans outcome)
      exact ⟨by simpa using inTurn.length, texts, inTurn⟩
  · obtain ⟨results, inTurn, texts, slots, rest⟩ := standing.submit engine
    obtain ⟨goes, edit⟩ := standing.edit_of_submits engine submits
    have ended : result = ((d.submit engine).1.outcome.1, (d.submit engine).1.outcome.2, (d.submit engine).2) := by
      have some : d.fields.isEmpty = false :=
        List.isEmpty_eq_false_iff_exists_mem.mpr ⟨_, List.getElem_mem standing.inside⟩
      simp [result, handle, some, goes, edit]
    refine ⟨results, ?_⟩
    rw [ended]
    split at rest
    · rename_i all
      obtain ⟨values, rfl⟩ := exists_map_ok all
      have accepts : Accepts r.fields d engine values (d.submit engine) := ⟨rest, slots, inTurn, texts⟩
      obtain ⟨outcome, kept⟩ := accepts.outcome
      refine ⟨inTurn, kept, fun other => ?_, fun some => ?_⟩
      · rw [outcome, DialogOutcome.accepted.injEq, (List.map_injective_iff.mpr fun _ _ => Except.ok.inj).eq_iff]
      · rw [all] at some
        cases some
    · rename_i fails
      obtain ⟨again, index, first, keyboard⟩ := rest
      rw [again.outcome]
      refine ⟨inTurn, texts, fun values => ⟨nofun, fun all => ?_⟩, fun _ => ⟨rfl, again.editing, slots, index, first,
        keyboard⟩⟩
      subst all
      obtain ⟨value, _, failed⟩ : ∃ value ∈ values, (Except.ok value : Except FieldError Answer).isOk = false := by
        simpa using fails
      cases failed

/-- The first field converts to 1 when it is left, and gets a second digit later. Submitting makes 12 of it, and the
    second field, in which nothing stands, keeps the dialog open. -/
theorem handle_accepts_texts_stale :
    let r : Request := ⟨none, [.integer, .integer]⟩
    let engine : Playback := ⟨PlaybackEngine.ofResults [], .ofLit []⟩
    let bounds : CellRect := ⟨1, 1, 52, 10⟩
    let next (d : InputDialog) (input : Input) : InputDialog := (d.handle engine input bounds).2.1
    let d := [.char '1', .tab, .shiftTab, .char '2'].foldl next (ofRequest r)
    let result := d.handle engine .ctrlEnter bounds
    d.session.slots.map (·.value) = [some (.integer 1), none] ∧ result.1 = .pending ∧
      result.2.1.session.slots.map (·.value) = [some (.integer 12), none] ∧ result.2.1.HasKeyboard 1 := by
  intro r engine bounds next d result
  have opened : Opened Playback r d :=
    .event engine (.char '2') bounds (.event engine .shiftTab bounds (.event engine .tab bounds
      (.event engine (.char '1') bounds .start (by decide)) (by decide)) (by decide)) (by decide)
  have pending : result.1 = .pending := by decide +kernel
  have focus : result.2.1.focus = 1 := by decide +kernel
  have old : d.session.slots.map (·.value) = [some (.integer 1), none] := by decide +kernel
  have new : result.2.1.session.slots.map (·.value) = [some (.integer 12), none] := by decide +kernel
  have handled := (handle_accepts_texts (by decide) opened engine .ctrlEnter bounds).2 (.inl rfl)
  rw [show d.handle engine .ctrlEnter bounds = result from rfl] at handled
  clear_value result
  obtain ⟨results, -, -, accepts, fails⟩ := handled
  cases all : results.all (·.isOk) with
  | true =>
      obtain ⟨values, rfl⟩ := exists_map_ok all
      cases pending.symm.trans ((accepts values).mpr rfl)
  | false =>
      obtain ⟨-, -, -, index, -, keyboard⟩ := fails all
      obtain rfl : index = 1 := keyboard.1.symm.trans focus
      exact ⟨old, pending, new, keyboard⟩

end InputDialog

end PocketBasic
