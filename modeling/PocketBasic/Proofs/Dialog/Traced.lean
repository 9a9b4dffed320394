import PocketBasic.Proofs.Engine.Traced
import PocketBasic.Proofs.Screen.Traced
import PocketBasic.View.InputDialog

/-! # Control characters in an input dialog

A dialog shows the prompt and the labels of its request, what is typed and pasted into its fields, and why that
does not convert. It hands over values that were converted from what is in the fields.
-/

namespace PocketBasic

variable {given : List Char}

/-- What a slot shows, and the value it holds. -/
structure Slot.Traced (given : List Char) (s : Slot) : Prop where
  kind : s.kind.Traced given
  value : ∀ value, s.value = some value → value.Traced given
  error : ∀ e, s.error = some e → e.Traced given

structure Session.Traced (given : List Char) (s : Session) : Prop where
  prompt : ∀ text, s.prompt = some text → Text.Traced given text.toList
  slots : ∀ slot ∈ s.slots, slot.Traced given

structure InputDialog.Traced (given : List Char) (d : InputDialog) : Prop where
  session : d.session.Traced given
  fields : ∀ f ∈ d.fields, Text.Traced given f.text

theorem Slot.traced_label {s : Slot} (traced : s.Traced given) : Text.Traced given s.label.toList := by
  have kind := traced.kind
  unfold label
  split
  · exact Text.traced_of_plain (by decide)
  · exact Text.traced_of_plain (by decide)
  · exact Text.traced_of_plain (by decide)
  · rename_i name param func
    rw [func] at kind
    exact (((kind.1.behind (by decide)).before (by decide)).append kind.2).before (by decide)

theorem Session.traced_ofRequest {r : Request} (traced : r.Traced given) : (ofRequest r).Traced given := by
  refine ⟨traced.prompt, fun slot member => ?_⟩
  obtain ⟨kind, inside, rfl⟩ := List.mem_map.mp member
  exact ⟨traced.fields kind inside, nofun, nofun⟩

theorem InputDialog.traced_ofRequest {r : Request} (traced : r.Traced given) : (ofRequest r).Traced given := by
  refine ⟨Session.traced_ofRequest traced, fun f member => ?_⟩
  obtain ⟨i, _, rfl⟩ := List.mem_map.mp member
  exact Text.traced_nil

/-! ## Sessions -/

variable {σ : Type} [Engine σ] [Device σ] {Holds : σ → Prop} {engine : σ}

section Sessions

variable (traces : Rig.Traces given Holds) (holds : Holds engine)

include traces holds

theorem Slot.holds_giveBack (value : Option Answer) : Holds (giveBack engine value) := by
  cases value with
  | none => exact holds
  | some value => exact traces.release _ _ holds

theorem Slot.traced_convert {s : Slot} (traced : s.Traced given) {text : List Char}
    (typed : Text.Traced given text) :
    (s.convert engine text).1.Traced given ∧ Holds (s.convert engine text).2 := by
  have sound := Conversion.sound_answer traces (Slot.holds_giveBack traces holds s.value) typed s.kind
  unfold convert
  split
  all_goals
    rename_i converted
    rw [converted] at sound
  · refine ⟨⟨traced.kind, ?_, nofun⟩, sound.holds⟩
    rintro _ ⟨⟩
    exact sound.meets
  · refine ⟨⟨traced.kind, nofun, ?_⟩, sound.holds⟩
    rintro _ ⟨⟩
    exact sound.meets

namespace Session

theorem traced_finish {s : Session} (traced : s.Traced given) (index : Nat) {text : List Char}
    (typed : Text.Traced given text) :
    (s.finish engine index text).2.1.Traced given ∧ Holds (s.finish engine index text).2.2 := by
  unfold finish
  split
  · rename_i slot _ inside
    obtain ⟨converted, kept⟩ :=
      Slot.traced_convert traces holds (traced.slots slot (List.mem_of_getElem? inside)) typed
    refine ⟨⟨traced.prompt, fun other member => ?_⟩, kept⟩
    rcases List.mem_or_eq_of_mem_set member with old | rfl
    · exact traced.slots other old
    · exact converted
  · exact ⟨traced, holds⟩

theorem traced_convertAll {slots : List Slot} (traced : ∀ slot ∈ slots, slot.Traced given)
    {texts : List (List Char)} (typed : ∀ text ∈ texts, Text.Traced given text) :
    (∀ slot ∈ (convertAll engine slots texts).1, slot.Traced given) ∧ Holds (convertAll engine slots texts).2 := by
  induction slots generalizing engine texts with
  | nil => exact ⟨nofun, holds⟩
  | cons slot rest ih =>
      rw [List.forall_mem_cons] at traced
      have first : Text.Traced given (texts.headD []) := by
        cases texts with
        | nil => exact Text.traced_nil
        | cons text _ => exact typed text List.mem_cons_self
      obtain ⟨converted, kept⟩ := Slot.traced_convert traces holds traced.1 first
      obtain ⟨others, last⟩ := ih kept traced.2 fun text member => typed text (List.mem_of_mem_tail member)
      exact ⟨List.forall_mem_cons.mpr ⟨converted, others⟩, last⟩

theorem traced_submit {s : Session} (traced : s.Traced given) {texts : List (List Char)}
    (typed : ∀ text ∈ texts, Text.Traced given text) :
    (s.submit engine texts).1.Traced given ∧ Holds (s.submit engine texts).2 := by
  unfold submit
  split
  · obtain ⟨slots, kept⟩ := traced_convertAll traces holds traced.slots typed
    exact ⟨⟨traced.prompt, slots⟩, kept⟩
  · exact ⟨traced, holds⟩

theorem traced_cancel {s : Session} (traced : s.Traced given) :
    (s.cancel engine).1.Traced given ∧ Holds (s.cancel engine).2 := by
  have released (slots : List Slot) : Holds (releaseAll engine slots) := by
    unfold releaseAll
    induction slots generalizing engine with
    | nil => exact holds
    | cons slot rest ih => exact ih (Slot.holds_giveBack traces holds slot.value)
  unfold cancel
  split
  · exact ⟨traced, holds⟩
  · refine ⟨⟨traced.prompt, fun slot member => ?_⟩, released s.slots⟩
    obtain ⟨old, inside, rfl⟩ := List.mem_map.mp member
    exact ⟨(traced.slots old inside).kind, nofun, (traced.slots old inside).error⟩

end Session

end Sessions

theorem exists_of_mapM_some {α β : Type} {f : α → Option β} {items : List α} {results : List β}
    (mapped : items.mapM f = some results) : ∀ b ∈ results, ∃ a ∈ items, f a = some b := by
  induction items generalizing results with
  | nil =>
      cases mapped
      exact nofun
  | cons a rest ih =>
      simp only [List.mapM_cons, bind, Option.bind_eq_some_iff, pure, Option.some.injEq] at mapped
      obtain ⟨first, read, others, later, rfl⟩ := mapped
      refine List.forall_mem_cons.mpr ⟨⟨a, List.mem_cons_self, read⟩, fun b member => ?_⟩
      obtain ⟨origin, inside, came⟩ := ih later b member
      exact ⟨origin, List.mem_cons_of_mem _ inside, came⟩

theorem Session.traced_take {s : Session} (traced : s.Traced given) :
    (∀ values, s.take.1 = some values → ∀ value ∈ values, value.Traced given) ∧ s.take.2.Traced given := by
  unfold take
  split
  · refine ⟨fun values taken value member => ?_, traced.prompt, fun slot member => ?_⟩
    · obtain ⟨slot, inside, held⟩ := exists_of_mapM_some taken value member
      exact (traced.slots slot inside).value value held
    · obtain ⟨old, inside, rfl⟩ := List.mem_map.mp member
      exact ⟨(traced.slots old inside).kind, nofun, (traced.slots old inside).error⟩
  · exact ⟨nofun, traced⟩

/-! ## The dialog -/

def DialogOutcome.Traced (given : List Char) : DialogOutcome → Prop
  | .accepted values => ∀ value ∈ values, value.Traced given
  | .pending | .cancelled => True

namespace InputDialog

variable {d : InputDialog}

theorem Traced.updateField (traced : d.Traced given) (index : Nat) {f : TextField → TextField}
    (keeps : ∀ field ∈ d.fields, Text.Traced given (f field).text) : (d.updateField index f).Traced given := by
  refine ⟨traced.session, fun field member => ?_⟩
  obtain ⟨i, entry⟩ := List.mem_iff_getElem?.mp member
  rw [InputDialog.updateField, List.getElem?_modify] at entry
  obtain ⟨old, inside, same⟩ := Option.map_eq_some_iff.mp entry
  have before := List.mem_of_getElem? inside
  split at same <;> cases same
  · exact keeps old before
  · exact traced.fields _ before

theorem Traced.setFocus (traced : d.Traced given) (index : Nat) : (d.setFocus index).Traced given := by
  have left := traced.updateField d.focus (f := fun f => { f with focused := false }) fun f member =>
    traced.fields f member
  have entered := left.updateField index (f := fun f => { f with focused := true }) fun f member =>
    left.fields f member
  exact ⟨entered.session, entered.fields⟩

theorem Traced.paste (traced : d.Traced given) {text : List Char}
    (pasted : Text.Traced given (text.filter fun c => c ≠ '\r' ∧ c ≠ '\n')) : (d.paste text).Traced given :=
  traced.updateField _ fun f member => TextField.traced_insertText (traced.fields f member) pasted

theorem Traced.outcome (traced : d.Traced given) : d.outcome.1.Traced given ∧ d.outcome.2.Traced given := by
  obtain ⟨values, left⟩ := Session.traced_take traced.session
  unfold InputDialog.outcome
  split
  · dsimp only
    split
    · rename_i taken
      exact ⟨values _ taken, left, traced.fields⟩
    · exact ⟨trivial, left, traced.fields⟩
  · exact ⟨trivial, traced⟩
  · exact ⟨trivial, traced⟩

section Engine

variable (traces : Rig.Traces given Holds) (holds : Holds engine) (traced : d.Traced given)

include traces holds traced

theorem traced_cancel :
    (d.cancel engine).1.Traced given ∧ (d.cancel engine).2.1.Traced given ∧ Holds (d.cancel engine).2.2 := by
  obtain ⟨session, kept⟩ := Session.traced_cancel traces holds traced.session
  obtain ⟨outcome, left⟩ := Traced.outcome (d := { d with session := (d.session.cancel engine).1 })
    ⟨session, traced.fields⟩
  exact ⟨outcome, left, kept⟩

theorem traced_moveFocus (index : Nat) :
    (d.moveFocus engine index).1.Traced given ∧ Holds (d.moveFocus engine index).2 := by
  have left (text : List Char) (typed : Text.Traced given text) :
      let ended := d.session.finish engine d.focus text
      let later := { d with session := ended.2.1 }
      (if ended.2.1.state = .editing then later.setFocus (index % d.fields.length) else later).Traced given ∧
        Holds ended.2.2 := by
    obtain ⟨session, kept⟩ := Session.traced_finish traces holds traced.session d.focus typed
    have finished : InputDialog.Traced given { d with session := (d.session.finish engine d.focus text).2.1 } :=
      ⟨session, traced.fields⟩
    refine ⟨?_, kept⟩
    split
    · exact finished.setFocus _
    · exact finished
  unfold moveFocus
  cases inside : d.fields[d.focus]? with
  | none => exact left [] Text.traced_nil
  | some f => exact left f.text (traced.fields f (List.mem_of_getElem? inside))

theorem traced_submit : (d.submit engine).1.Traced given ∧ Holds (d.submit engine).2 := by
  have typed : ∀ text ∈ d.fields.map (·.text), Text.Traced given text := by
    intro text member
    obtain ⟨f, inside, rfl⟩ := List.mem_map.mp member
    exact traced.fields f inside
  obtain ⟨session, kept⟩ := Session.traced_submit traces holds traced.session typed
  have submitted : InputDialog.Traced given { d with session := (d.session.submit engine (d.fields.map (·.text))).1 } :=
    ⟨session, traced.fields⟩
  refine ⟨?_, kept⟩
  unfold submit
  dsimp only
  split
  · split
    · exact submitted.setFocus _
    · exact submitted
  · exact submitted

variable {input : Input} (typed : Text.Traced given input.typed) (bounds : CellRect)

include typed

theorem traced_clickField :
    (d.clickField engine input bounds).1.Traced given ∧ Holds (d.clickField engine input bounds).2 := by
  unfold clickField
  dsimp only
  split
  · rename_i f index found
    have inside : f ∈ d.fields := List.fst_mem_of_mem_zipIdx (List.mem_of_find?_eq_some found)
    have clicked := TextField.traced_handle (traced.fields f inside) typed (d.fieldRect bounds index)
    have updated := traced.updateField index fun _ _ => clicked
    split
    · exact ⟨updated, holds⟩
    · exact traced_moveFocus traces holds updated index
  · exact ⟨traced, holds⟩

theorem traced_typeInto :
    (d.typeInto engine input bounds).1.Traced given ∧ Holds (d.typeInto engine input bounds).2 := by
  unfold typeInto
  split
  · exact ⟨traced, holds⟩
  · rename_i f inside
    have handled := TextField.traced_handle (traced.fields f (List.mem_of_getElem? inside)) typed
      (d.fieldRect bounds d.focus)
    have updated := traced.updateField d.focus fun _ _ => handled
    dsimp only
    split
    · split
      · exact traced_submit traces holds updated
      · exact traced_moveFocus traces holds updated _
    · exact ⟨updated, holds⟩

theorem traced_edit : (d.edit engine input bounds).1.Traced given ∧ Holds (d.edit engine input bounds).2 := by
  unfold edit
  split
  · exact traced_submit traces holds traced
  · exact traced_moveFocus traces holds traced _
  · exact traced_moveFocus traces holds traced _
  · exact traced_moveFocus traces holds traced _
  · exact traced_moveFocus traces holds traced _
  · split
    · exact traced_submit traces holds traced
    · exact traced_clickField traces holds traced typed bounds
  · exact traced_typeInto traces holds traced typed bounds

/-- An event leaves the dialog and the rig traced, and the values that it hands over. -/
theorem traced_handle :
    (d.handle engine input bounds).1.Traced given ∧ (d.handle engine input bounds).2.1.Traced given ∧
      Holds (d.handle engine input bounds).2.2 := by
  unfold handle
  split
  · exact ⟨trivial, traced, holds⟩
  · split
    · exact traced_cancel traces holds traced
    · obtain ⟨edited, kept⟩ := traced_edit traces holds traced typed bounds
      obtain ⟨outcome, left⟩ := edited.outcome
      exact ⟨outcome, left, kept⟩

end Engine

/-! ## Drawing -/

theorem traced_drawField {s : Screen} (drawn : s.Traced given) (rect : CellRect) {slot : Slot}
    (traced : slot.Traced given) {field : TextField} (typed : Text.Traced given field.text) :
    (drawField s rect slot field).Traced given := by
  have labelled : (s.write (rect.y - 1) rect.x slot.label .black .lightGray).Traced given :=
    drawn.write (Slot.traced_label traced)
  unfold drawField
  dsimp only
  split
  · rename_i e failed
    exact (TextField.traced_draw typed labelled rect).writeChars
      ((traced.error e failed).of_subset (List.take_subset _ _))
  · exact TextField.traced_draw typed labelled rect

theorem traced_drawPrompt {s : Screen} (drawn : s.Traced given) (traced : d.Traced given) (bounds : CellRect) :
    Screen.Traced given (match d.session.prompt with
      | some prompt => s.write (bounds.y + 1) (bounds.x + 2) prompt .black .lightGray
      | none => s) := by
  split
  · rename_i prompt asked
    exact drawn.write (traced.session.prompt prompt asked)
  · exact drawn

theorem traced_drawFields {s : Screen} (drawn : s.Traced given) (traced : d.Traced given) (bounds : CellRect) :
    (((d.session.slots.zip d.fields).zipIdx 0).foldl
      (fun s ((slot, field), index) => drawField s (d.fieldRect bounds index) slot field) s).Traced given := by
  refine drawn.foldl fun s entry member drawn => ?_
  obtain ⟨⟨slot, field⟩, index⟩ := entry
  have inside := List.of_mem_zip (List.fst_mem_of_mem_zipIdx member)
  exact traced_drawField drawn _ (traced.session.slots slot inside.1) (traced.fields field inside.2)

theorem traced_drawCursor {s : Screen} (drawn : s.Traced given) (rect : CellRect) :
    Screen.Traced given (match d.fields[d.focus]? with
      | some f => s.setCursor rect.y (rect.x + min f.cursor (rect.width - 1))
      | none => s) := by
  split
  · exact drawn.setCursor
  · exact drawn

theorem traced_draw {s : Screen} (drawn : s.Traced given) (traced : d.Traced given) (bounds : CellRect) :
    (d.draw s bounds).Traced given := by
  have plain {text : String} (plain : Text.isPlain text.toList = true) : Text.Traced given text.toList :=
    Text.traced_of_plain plain
  unfold draw
  dsimp only
  apply traced_drawCursor
  refine ((Screen.Traced.write ?_ (plain (by decide))).write (plain (by decide))).write (plain (by decide))
  exact traced_drawFields (traced_drawPrompt (drawn.box.write (plain (by decide))) traced bounds) traced bounds

end InputDialog

end PocketBasic
