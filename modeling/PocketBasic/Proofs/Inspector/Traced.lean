import PocketBasic.Proofs.Engine.Traced
import PocketBasic.Proofs.Screen.Traced
import PocketBasic.Proofs.Store.Operations
import PocketBasic.View.Inspector

/-! # Control characters in the inspector

The inspector shows names and values of variables, what is typed over a value, and why it is not stored. Numbers
and punctuation apart, that is text of the program, of its variables, or of the user.
-/

namespace PocketBasic

variable {given : List Char}

/-! ## Rows -/

namespace Number.Decimal

open Text

theorem traced_positional (x : Decimal) : Traced given x.positional := by
  have ds : Traced given (Number.digits x.digits) := traced_toDigits 10 _
  unfold positional
  dsimp only
  split
  · exact traced_append.mpr ⟨ds, traced_replicate _ rfl⟩
  · split
    · exact traced_append.mpr ⟨ds.of_subset (List.take_subset _ _),
        (traced_cons_of_plain rfl).mpr (ds.of_subset (List.drop_subset _ _))⟩
    · exact (traced_cons_of_plain rfl).mpr ((traced_cons_of_plain rfl).mpr
        (traced_append.mpr ⟨traced_replicate _ rfl, ds⟩))

theorem traced_scientific (x : Decimal) : Traced given x.scientific := by
  have ds : Traced given (Number.digits x.digits) := traced_toDigits 10 _
  unfold scientific
  generalize Number.digits x.digits = ds at *
  dsimp only
  refine traced_append.mpr ⟨traced_append.mpr ⟨?_, (traced_cons_of_plain rfl).mpr ?_⟩, traced_toDigits 10 _⟩
  · split
    · simpa only [traced_cons, traced_cons_of_plain (c := '.') rfl] using ds
    · exact ds
  · split
    · exact traced_of_plain (by decide)
    · exact traced_nil

end Number.Decimal

theorem Binary64.traced_text (x : Binary64) : Text.Traced given x.text.toList := by
  have sign : Text.Traced given (if x.isNegative then "-" else "").toList := by
    split <;> exact Text.traced_of_plain (by decide)
  unfold text
  split
  · exact Text.traced_of_plain (by decide)
  · dsimp only
    split
    · exact sign.before (by decide)
    · split
      · exact sign.before (by decide)
      · refine sign.append ?_
        rw [String.toList_ofList]
        split
        · exact Number.Decimal.traced_positional _
        · exact Number.Decimal.traced_scientific _

theorem Value.traced_display {v : Value} (traced : v.Traced given) : Text.Traced given v.display.toList := by
  cases v with
  | integer n => exact Text.traced_toString_int _
  | real x => exact x.traced_text
  | string s =>
      have text : Text.Traced given (String.ofList s.toText).toList := by
        rw [String.toList_ofList]
        exact traced
      exact (text.behind (by decide)).before (by decide)

theorem Value.traced_editText {v : Value} (traced : v.Traced given) : Text.Traced given v.editText.toList := by
  unfold editText
  split
  · rw [String.toList_ofList]
    exact traced
  · exact traced_display traced

theorem traced_commaSeparated (items : List UInt16) : Text.Traced given (commaSeparated items).toList := by
  unfold commaSeparated
  induction items with
  | nil => exact Text.traced_of_plain (by decide)
  | cons item rest ih =>
      have number : Text.Traced given (toString item.toNat).toList := Text.traced_toString_nat _
      cases rest with
      | nil => simpa using number
      | cons next more =>
          rw [List.map_cons, String.intercalate_cons_of_ne_nil (by simp)]
          exact (number.before (by decide)).append ih

/-- The name that a row stands for, and what it shows. -/
structure InspectorRow.Traced (given : List Char) (row : InspectorRow) : Prop where
  name : Text.Traced given row.target.name.toList
  label : Text.Traced given row.label.toList
  value : Text.Traced given row.value.toList

namespace InspectorRow

theorem traced_valueText {value : Option Value} (traced : ∀ v, value = some v → v.Traced given) :
    Text.Traced given (valueText value).toList := by
  cases value with
  | none => exact Text.traced_of_plain (by decide)
  | some v => exact Value.traced_display (traced v rfl)

theorem traced_ofBinding {store : Store} (traced : store.Traced given) (expanded : List String) {b : Binding}
    (named : Text.Traced given b.name.toList) : ∀ row ∈ ofBinding store expanded b, row.Traced given := by
  have arguments {name : String} (named : Text.Traced given name.toList) (items : List UInt16) :
      Text.Traced given (name ++ "(" ++ commaSeparated items ++ ")").toList :=
    ((named.before (by decide)).append (traced_commaSeparated items)).before (by decide)
  have mark {text name : String} (mark : Text.isPlain text.toList = true)
      (named : Text.Traced given name.toList) (items : List UInt16) :
      Text.Traced given (text ++ name ++ "(" ++ commaSeparated items ++ ")").toList :=
    arguments (named.behind mark) items
  cases b with
  | scalar name =>
      exact List.forall_mem_singleton.mpr ⟨named, named, traced_valueText fun _ found => traced.get? found⟩
  | array name dims =>
      have placeholder : Text.Traced given arrayPlaceholder.toList := Text.traced_of_plain (by decide)
      unfold ofBinding
      dsimp only
      split
      · refine List.forall_mem_cons.mpr ⟨⟨named, mark (by decide) named dims, placeholder⟩, fun row member => ?_⟩
        obtain ⟨subs, _, rfl⟩ := List.mem_map.mp member
        exact ⟨named, mark (by decide) named subs, traced_valueText fun _ found => traced.element? found⟩
      · exact List.forall_mem_singleton.mpr ⟨named, mark (by decide) named dims, placeholder⟩

theorem traced_ofStore {store : Store} (traced : store.Traced given) (expanded : List String) :
    ∀ row ∈ ofStore store expanded, row.Traced given := by
  intro row member
  obtain ⟨b, bound, inside⟩ := List.mem_flatMap.mp member
  refine traced_ofBinding traced expanded ?_ row inside
  rcases List.mem_append.mp bound with scalar | array
  · obtain ⟨⟨name, value⟩, entry, rfl⟩ := List.mem_map.mp scalar
    exact (traced.scalars name value (NameTable.find?_eq_some_iff.mpr entry)).1
  · obtain ⟨⟨name, a⟩, entry, rfl⟩ := List.mem_map.mp array
    exact (traced.arrays name a (NameTable.find?_eq_some_iff.mpr entry)).1

end InspectorRow

/-! ## The list -/

def InspectorError.Traced (given : List Char) (e : InspectorError) : Prop := Text.Traced given e.message.toList

abbrev Inspector.Traced (given : List Char) (i : Inspector) : Prop := ∀ row ∈ i.rows, row.Traced given

variable {σ : Type} [Engine σ] [Device σ] {Holds : σ → Prop} {engine : σ}

namespace Inspector

variable {i : Inspector} {store : Store}

theorem traced_refresh (i : Inspector) (stored : store.Traced given) : (i.refresh store).Traced given := by
  unfold refresh
  split
  · exact InspectorRow.traced_ofStore stored _
  · exact nofun

theorem traced_toggle (traced : i.Traced given) (stored : store.Traced given) :
    (i.toggle store).2.Traced given := by
  unfold toggle
  split
  · exact traced_refresh _ stored
  · exact traced

theorem traced_editText (stored : store.Traced given) {text : String} (found : i.editText store = some text) :
    Text.Traced given text.toList := by
  unfold editText at found
  split at found
  · obtain ⟨row, _, found⟩ := Option.bind_eq_some_iff.mp found
    obtain ⟨value, target, rfl⟩ := Option.map_eq_some_iff.mp found
    refine Value.traced_editText ?_
    unfold targetValue? at target
    split at target
    · exact stored.get? target
    · exact stored.element? target
    · cases target
  · cases found

theorem meets_storeIn (stored : store.Traced given) {value : Value} (new : value.Traced given) {target : RowTarget}
    (named : Text.Traced given target.name.toList) :
    Meets (InspectorError.Traced given) (Store.Traced given) (storeIn store value target) := by
  cases target with
  | scalar name => exact (stored.modify named new).mapError fun _ complaint => complaint
  | element name subs => exact (stored.setElement named new).mapError fun _ complaint => complaint
  | array => exact Text.traced_of_plain (by decide)

variable (traces : Rig.Traces given Holds) (holds : Holds engine)

include traces holds

/-- What is stored was typed, and a complaint is about that or about the variable of the row. -/
theorem traced_commit (traced : i.Traced given) {text : List Char} (typed : Text.Traced given text) :
    (∀ e, (i.commit engine text).1 = some e → e.Traced given) ∧ (i.commit engine text).2.1.Traced given ∧
      Holds (i.commit engine text).2.2 := by
  have complains {e : InspectorError} (complaint : e.Traced given) :
      ∀ other, some e = some other → other.Traced given := by
    rintro _ ⟨⟩
    exact complaint
  unfold commit
  split
  · split
    · exact ⟨complains (Text.traced_of_plain (by decide)), traced, holds⟩
    · rename_i row selected
      have shown := traced row (List.mem_of_getElem? selected)
      have sound := Conversion.sound_value traces holds typed (.ofName row.target.name)
      split
      all_goals
        rename_i converted
        rw [converted] at sound
      · exact ⟨complains sound.meets, traced, sound.holds⟩
      · have stored := meets_storeIn (traces.store _ sound.holds) sound.meets shown.name
        split
        · rename_i refused
          exact ⟨complains (stored.error refused), traced, sound.holds⟩
        · rename_i store result
          have fresh := stored.ok result
          exact ⟨nofun, traced_refresh i fresh, traces.withStore _ _ sound.holds fresh⟩
  · exact ⟨complains (Text.traced_of_plain (by decide)), traced, holds⟩

end Inspector

/-! ## The panel -/

structure InspectorPanel.Traced (given : List Char) (p : InspectorPanel) : Prop where
  model : p.model.Traced given
  editor : ∀ field, p.editor = some field → Text.Traced given field.text
  error : ∀ text, p.error = some text → Text.Traced given text.toList

namespace InspectorPanel

variable {p : InspectorPanel} {store : Store}

theorem traced_empty : empty.Traced given := ⟨nofun, nofun, nofun⟩

namespace Traced

theorem withModel (traced : p.Traced given) {model : Inspector} (shown : model.Traced given) :
    InspectorPanel.Traced given { p with model } :=
  ⟨shown, traced.editor, traced.error⟩

theorem closeEditor (traced : p.Traced given) : p.closeEditor.Traced given := ⟨traced.model, nofun, nofun⟩

theorem setFocus (traced : p.Traced given) (focused : Bool) : (p.setFocus focused).Traced given := by
  unfold InspectorPanel.setFocus
  dsimp only
  split
  · exact ⟨traced.model, traced.editor, traced.error⟩
  · exact ⟨traced.model, nofun, nofun⟩

theorem setEnabled (traced : p.Traced given) (enabled : Bool) (stored : store.Traced given) :
    (p.setEnabled enabled store).Traced given := by
  have shown := traced.withModel (Inspector.traced_refresh { p.model with enabled } stored)
  unfold InspectorPanel.setEnabled
  dsimp only
  split
  · exact shown
  · exact shown.setFocus false

theorem beginEdit (traced : p.Traced given) (stored : store.Traced given) : (p.beginEdit store).Traced given := by
  unfold InspectorPanel.beginEdit
  split
  · rename_i text found
    refine ⟨traced.model, ?_, nofun⟩
    rintro _ ⟨⟩
    have whole := Inspector.traced_editText stored found
    exact TextField.traced_insertText Text.traced_nil (whole.of_subset (List.filter_sublist.subset))
  · exact traced

theorem activate (traced : p.Traced given) (stored : store.Traced given) : (p.activate store).Traced given := by
  have toggled := Inspector.traced_toggle traced.model stored
  unfold InspectorPanel.activate
  split
  all_goals
    rename_i toggle
    rw [toggle] at toggled
  · exact traced.withModel toggled
  · exact (traced.withModel toggled).beginEdit stored

theorem select (traced : p.Traced given) (index : Nat) : (p.select index).Traced given :=
  traced.withModel traced.model

theorem click (traced : p.Traced given) (row col : Nat) (bounds : CellRect) (stored : store.Traced given) :
    (p.click row col bounds store).Traced given := by
  have focused := traced.setFocus true
  unfold InspectorPanel.click
  dsimp only
  split
  · exact focused
  · split
    · exact focused
    · unfold clickRow
      split
      · exact focused.select _
      · split
        · split
          · exact focused
          · exact focused.activate stored
        · exact focused.closeEditor.select _

theorem navigate (traced : p.Traced given) (stored : store.Traced given) {input : Input} {other : InspectorPanel}
    (moved : p.navigate? store input = some other) : other.Traced given := by
  cases input with
  | cursorUp | cursorDown | home | «end» =>
      cases moved
      exact traced.withModel traced.model
  | enter =>
      cases moved
      exact traced.activate stored
  | escape =>
      cases moved
      exact traced.setFocus false
  | _ => cases moved

end Traced

section Engine

variable (traces : Rig.Traces given Holds) (holds : Holds engine) (traced : p.Traced given)

include traces holds traced

theorem traced_commit {text : List Char} (typed : Text.Traced given text) :
    (p.commit engine text).1.Traced given ∧ Holds (p.commit engine text).2 := by
  obtain ⟨errors, model, kept⟩ := Inspector.traced_commit traces holds traced.model typed
  unfold commit
  split
  all_goals
    rename_i committed
    rw [committed] at errors model kept
  · exact ⟨(traced.withModel model).closeEditor, kept⟩
  · refine ⟨⟨model, traced.editor, ?_⟩, kept⟩
    rintro _ ⟨⟩
    exact errors _ rfl

variable {input : Input} (typed : Text.Traced given input.typed) (bounds : CellRect)

include typed

theorem traced_typeInto {field : TextField} (edits : p.editor = some field) :
    (p.typeInto engine field input bounds).1.Traced given ∧ Holds (p.typeInto engine field input bounds).2 := by
  unfold typeInto
  split
  · exact ⟨traced.closeEditor, holds⟩
  · have handled := TextField.traced_handle (traced.editor field edits) typed
      (p.valueRect (listRect bounds) p.model.selected)
    have edited : InspectorPanel.Traced given
        { p with editor := some (field.handle input (p.valueRect (listRect bounds) p.model.selected)).2 } := by
      refine ⟨traced.model, ?_, traced.error⟩
      rintro _ ⟨⟩
      exact handled
    dsimp only
    split
    · exact traced_commit traces holds edited handled
    · exact ⟨edited, holds⟩

/-- An event leaves the panel and the rig traced. -/
theorem traced_handle :
    (p.handle engine input bounds).2.1.Traced given ∧ Holds (p.handle engine input bounds).2.2 := by
  have stored := traces.store _ holds
  unfold handle
  split
  · split
    · split
      · exact ⟨traced.click _ _ _ stored, holds⟩
      · exact ⟨traced, holds⟩
    · exact ⟨traced, holds⟩
  · split
    · exact ⟨traced, holds⟩
    · split
      · rename_i field edits
        exact traced_typeInto traces holds traced typed bounds edits
      · split
        · rename_i moved
          exact ⟨traced.navigate stored moved, holds⟩
        · exact ⟨traced, holds⟩

end Engine

/-! ## Drawing -/

theorem traced_drawRow (traced : p.Traced given) {s : Screen} (drawn : s.Traced given) (list : CellRect)
    (index : Nat) {row : InspectorRow} (shown : row.Traced given) : (p.drawRow s list index row).Traced given := by
  have label : Text.Traced given (row.label.toList.take labelWidth) := shown.label.of_subset (List.take_subset _ _)
  unfold drawRow
  dsimp only
  split
  · rename_i field edits _
    exact TextField.traced_draw (traced.editor field edits) ((drawn.fill Text.traced_blank).writeChars label) _
  · exact ((drawn.fill Text.traced_blank).writeChars label).writeChars
      (shown.value.of_subset (List.take_subset _ _))

theorem traced_drawRows (traced : p.Traced given) {s : Screen} (drawn : s.Traced given) (list : CellRect) :
    ((((p.model.rows.drop (p.firstVisible list)).take list.height).zipIdx (p.firstVisible list)).foldl
      (fun s (row, index) => p.drawRow s list index row) s).Traced given := by
  refine drawn.foldl fun s entry member drawn => ?_
  obtain ⟨row, index⟩ := entry
  have inside := List.mem_of_mem_drop (List.mem_of_mem_take (List.fst_mem_of_mem_zipIdx member))
  exact traced_drawRow traced drawn list index (traced.model row inside)

theorem traced_drawError (traced : p.Traced given) {s : Screen} (drawn : s.Traced given) (list : CellRect) :
    Screen.Traced given (match p.error with
      | some e => s.writeChars (list.y + list.height) list.x .red .black (e.toList.take list.width)
      | none => s) := by
  split
  · rename_i e failed
    exact drawn.writeChars ((traced.error e failed).of_subset (List.take_subset _ _))
  · exact drawn

theorem traced_drawList (traced : p.Traced given) {s : Screen} (drawn : s.Traced given) (list : CellRect) :
    (p.drawList s list).Traced given := by
  have empty : (if p.model.rows.isEmpty then s.write list.y (list.x + 1) "No variables" .darkGray .black
      else s).Traced given := by
    split
    · exact drawn.write (Text.traced_of_plain (by decide))
    · exact drawn
  have listed := traced_drawError traced (traced_drawRows traced empty list) list
  unfold drawList
  dsimp only
  split
  · exact listed.setCursor
  · exact listed

theorem traced_draw (traced : p.Traced given) {s : Screen} (drawn : s.Traced given) (bounds : CellRect) :
    (p.draw s bounds).Traced given := by
  have plain {text : String} (plain : Text.isPlain text.toList = true) : Text.Traced given text.toList :=
    Text.traced_of_plain plain
  unfold draw
  dsimp only
  split
  · exact traced_drawList traced (drawn.box.write (plain (by decide))) _
  · exact (drawn.box.write (plain (by decide))).write (plain (by decide))

end InspectorPanel

end PocketBasic
