import PocketBasic.Playback
import PocketBasic.Proofs.Dialog.Fields
import PocketBasic.Proofs.Inspector.Editing
import PocketBasic.Proofs.Store.Operations
import PocketBasic.Proofs.TextField.Cursor

/-! # The terminal's cursor in a text field

A dialog and the inspector put the terminal's cursor as many cells behind the start of a field as the cursor is behind
the start of the text, or into the last cell of the field. That is where the field draws its cursor if it has not
scrolled, or has its cursor in the last cell. Keys and clicks keep the cursor in view; a paste, and the text that an
editor opens with, do so if there is room for them.
-/

namespace PocketBasic

variable {σ : Type} [Engine σ] {place : CellRect}

namespace InputDialog

variable {r : Request} {ops : List (Operation σ)}

/-- The cursors are in the texts, and not in front of the views. -/
theorem keyed_sound (asks : r.fields ≠ []) (wide : 4 < place.width)
    (same : ∀ engine input bounds, .event engine input bounds ∈ ops → bounds.width = place.width) :
    ∀ done, done <+: ops → Keyed TextField.Sound ((ofRequest r).performAll done) := by
  refine forall_prefix (.ofRequest asks fun _ => ⟨Nat.le_refl 0, Nat.le_refl 0⟩) fun done op first before => ?_
  have member := first.subset (List.mem_append_right done List.mem_cons_self)
  rw [performAll_concat]
  refine before.perform (fun f _ sound => ⟨sound.within, sound.behind⟩) ?_
    fun text _ f _ sound => sound.insertText text
  rintro engine input bounds rfl f sound rect width
  have := same engine input bounds member
  exact sound.handle (by omega) input

/-- All cursors are in view all along exactly if there is room behind the cursor for each text that is pasted. -/
theorem inView_iff (asks : r.fields ≠ []) (wide : 4 < place.width)
    (same : ∀ engine input bounds, .event engine input bounds ∈ ops → bounds.width = place.width) :
    (∀ done, done <+: ops → ∀ f ∈ ((ofRequest r).performAll done).fields, f.InView (place.width - 4)) ↔
      ∀ done text f, done ++ [.paste text] <+: ops →
        ((ofRequest r).performAll done).fields[((ofRequest r).performAll done).focus]? = some f →
        f.cursor + (TextField.inserted text).length < f.scroll + (place.width - 4) := by
  have sound := keyed_sound asks wide same
  constructor
  · intro seen done text f first here
    have keyed := sound done ((List.prefix_append done _).trans first)
    have pasted : ((ofRequest r).performAll (done ++ [.paste text])).fields[((ofRequest r).performAll done).focus]? =
        some (f.insertText text) := by
      rw [performAll_concat]
      change (((ofRequest r).performAll done).updateField _ _).fields[_]? = _
      rw [getElem?_updateField, here, Option.map_some, if_pos rfl]
    exact (TextField.inView_insertText_iff (keyed.fields f (List.mem_of_getElem? here)) text).mp
      (seen _ first _ (List.mem_of_getElem? pasted))
  · intro room
    have seen : ∀ done, done <+: ops →
        Keyed (fun f => f.Sound ∧ f.InView (place.width - 4)) ((ofRequest r).performAll done) := by
      refine forall_prefix ?_ fun done op first before => ?_
      · refine .ofRequest asks fun _ => ⟨⟨Nat.le_refl 0, Nat.le_refl 0⟩, Nat.le_refl 0, ?_⟩
        exact Nat.lt_of_lt_of_eq (Nat.sub_pos_of_lt wide) (Nat.zero_add _).symm
      have member := first.subset (List.mem_append_right done List.mem_cons_self)
      rw [performAll_concat]
      refine before.perform (fun f _ kept => ⟨⟨kept.1.within, kept.1.behind⟩, kept.2⟩) ?_ ?_
      · rintro engine input bounds rfl f ⟨sound, seen⟩ rect width
        have width : rect.width = place.width - 4 := by rw [width, same engine input bounds member]
        rw [← width] at seen ⊢
        exact ⟨sound.handle (by omega) input, seen.handle sound input⟩
      · rintro text rfl f here ⟨sound, -⟩
        exact ⟨sound.insertText text, (TextField.inView_insertText_iff sound text).mpr (room done text f first here)⟩
    exact fun done first f member => ((seen done first).fields f member).2

theorem cursor_draw {d : InputDialog} {f : TextField} (here : d.fields[d.focus]? = some f) (s : Screen) :
    let rect := d.fieldRect place d.focus
    (d.draw s place).cursor = (rect.y, rect.x + min f.cursor (rect.width - 1)) := by
  simp only [draw, here]
  rfl

end InputDialog

namespace InspectorPanel

variable {ops : List (Operation σ)}

theorem sound_prefilled (text : List Char) : (prefilled text).Sound := by
  have empty : TextField.empty.Sound := ⟨Nat.le_refl 0, Nat.le_refl 0⟩
  have sound := empty.insertText text
  exact ⟨sound.within, sound.behind⟩

/-- An editor that has just opened has its cursor in view if its text is shorter than it is wide. -/
theorem inView_prefilled_iff (text : List Char) (width : Nat) :
    (prefilled text).InView width ↔ (prefilled text).text.length < width := by
  simp [prefilled, TextField.InView, TextField.insertText, TextField.empty]

theorem sound_editor (wide : 17 < place.width)
    (same : ∀ engine input bounds, .event engine input bounds ∈ ops → bounds.width = place.width) :
    ∀ done, done <+: ops → ∀ f, (empty.performAll done).editor = some f → f.Sound := by
  refine forall_prefix nofun fun done op first before g opened => ?_
  rw [performAll_concat] at opened
  obtain still | ⟨-, text, rfl⟩ | ⟨f, engine, input, bounds, edits, rfl, rect, width, rfl⟩ :=
    (keyed_empty.performAll done).editor_perform opened
  · exact before g still
  · exact sound_prefilled text
  · have := same engine input bounds (first.subset (List.mem_append_right done List.mem_cons_self))
    exact (before f edits).handle (by omega) input

/-- The cursor of the editor is in view all along exactly if each text that an editor opens with is shorter than the
    editor is wide. -/
theorem inView_iff (wide : 17 < place.width)
    (same : ∀ engine input bounds, .event engine input bounds ∈ ops → bounds.width = place.width) :
    (∀ done, done <+: ops → ∀ f, (empty.performAll done).editor = some f → f.InView (place.width - 17)) ↔
      ∀ done op f, done ++ [op] <+: ops → (empty.performAll done).editor = none →
        (empty.performAll (done ++ [op])).editor = some f → f.text.length < place.width - 17 := by
  have fresh {done : List (Operation σ)} {op : Operation σ} {f : TextField}
      (closed : (empty.performAll done).editor = none) (opened : (empty.performAll (done ++ [op])).editor = some f) :
      ∃ text, f = prefilled text := by
    rw [performAll_concat] at opened
    obtain still | ⟨-, opens⟩ | ⟨_, _, _, _, edits, _⟩ := (keyed_empty.performAll done).editor_perform opened
    · cases closed.symm.trans still
    · exact opens
    · cases closed.symm.trans edits
  constructor
  · intro seen done op f first closed opened
    obtain ⟨text, rfl⟩ := fresh closed opened
    exact (inView_prefilled_iff text _).mp (seen _ first _ opened)
  · intro short
    refine forall_prefix nofun fun done op first before g opened => ?_
    have step := opened
    rw [performAll_concat] at step
    obtain still | ⟨closed, text, rfl⟩ | ⟨f, engine, input, bounds, edits, rfl, rect, width, rfl⟩ :=
      (keyed_empty.performAll done).editor_perform step
    · exact before g still
    · exact (inView_prefilled_iff text _).mpr (short done op _ first closed opened)
    · have member := first.subset (List.mem_append_right done List.mem_cons_self)
      have width : rect.width = place.width - 17 := by rw [width, same engine input bounds member]
      have sound := sound_editor wide same done ((List.prefix_append done _).trans first) f edits
      have seen := before f edits
      rw [← width] at seen ⊢
      exact seen.handle sound input

theorem cursor_draw {p : InspectorPanel} {f : TextField} (edits : p.editor = some f) (enabled : p.model.enabled = true)
    (s : Screen) :
    let rect := p.valueRect (listRect place) p.model.selected
    (p.draw s place).cursor = (rect.y, rect.x + min f.cursor (rect.width - 1)) := by
  simp only [draw, enabled, if_true, drawList, edits]
  rfl

end InspectorPanel

/-- In dialogs and editors alike the cursor is in the text and not in front of the view. It is in view all along exactly
    if what is pasted has room behind the cursor, and what an editor opens with is shorter than the editor is wide. The
    terminal's cursor is put onto the cell that the field draws in the colors of the cursor exactly if the cursor is in
    view and the field has not scrolled, or has its cursor in the last cell. -/
theorem terminal_cursor_iff {r : Request} {ops : List (InputDialog.Operation σ)}
    {edits : List (InspectorPanel.Operation σ)} {panelPlace : CellRect} (asks : r.fields ≠ [])
    (wide : 4 < place.width) (panelWide : 17 < panelPlace.width)
    (same : ∀ engine input bounds, .event engine input bounds ∈ ops → bounds.width = place.width)
    (panelSame : ∀ engine input bounds, .event engine input bounds ∈ edits → bounds.width = panelPlace.width) :
    let dialog (done : List (InputDialog.Operation σ)) := (InputDialog.ofRequest r).performAll done
    let panel (done : List (InspectorPanel.Operation σ)) := InspectorPanel.empty.performAll done
    let fieldRect := (dialog ops).fieldRect place (dialog ops).focus
    let editorRect := (panel edits).valueRect (InspectorPanel.listRect panelPlace) (panel edits).model.selected
    let dialogCursor (s : Screen) := ((dialog ops).draw s place).cursor
    let panelCursor (s : Screen) := ((panel edits).draw s panelPlace).cursor
    (∀ f ∈ (dialog ops).fields, f.scroll ≤ f.cursor ∧ f.cursor ≤ f.text.length) ∧
    ((∀ done, done <+: ops → ∀ f ∈ (dialog done).fields, f.InView (place.width - 4)) ↔
      ∀ done text f, done ++ [.paste text] <+: ops → (dialog done).fields[(dialog done).focus]? = some f →
        f.cursor + (TextField.inserted text).length < f.scroll + (place.width - 4)) ∧
    (∃ f, (dialog ops).fields[(dialog ops).focus]? = some f ∧
      ∀ s, s.Contains (dialogCursor s).1 (dialogCursor s).2 →
        (f.ShowsCursor s fieldRect (dialogCursor s) ↔
          f.InView (place.width - 4) ∧ (f.scroll = 0 ∨ f.cursor + 1 = f.scroll + (place.width - 4)))) ∧
    (∀ f, (panel edits).editor = some f → f.scroll ≤ f.cursor ∧ f.cursor ≤ f.text.length) ∧
    ((∀ done, done <+: edits → ∀ f, (panel done).editor = some f → f.InView (panelPlace.width - 17)) ↔
      ∀ done op f, done ++ [op] <+: edits → (panel done).editor = none → (panel (done ++ [op])).editor = some f →
        f.text.length < panelPlace.width - 17) ∧
    ∀ f, (panel edits).editor = some f →
      ∀ s, s.Contains (panelCursor s).1 (panelCursor s).2 →
        (f.ShowsCursor s editorRect (panelCursor s) ↔
          f.InView (panelPlace.width - 17) ∧ (f.scroll = 0 ∨ f.cursor + 1 = f.scroll + (panelPlace.width - 17))) := by
  intro dialog panel fieldRect editorRect dialogCursor panelCursor
  have keyed := InputDialog.keyed_sound asks wide same ops (List.prefix_refl ops)
  have sound := InspectorPanel.sound_editor panelWide panelSame edits (List.prefix_refl edits)
  refine ⟨fun f member => ⟨(keyed.fields f member).behind, (keyed.fields f member).within⟩,
    InputDialog.inView_iff asks wide same, ?_, fun f opened => ⟨(sound f opened).behind, (sound f opened).within⟩,
    InspectorPanel.inView_iff panelWide panelSame, fun f opened s => ?_⟩
  · obtain ⟨f, here, focused⟩ := keyed.exists_focused
    refine ⟨f, here, fun s => ?_⟩
    rw [show dialogCursor s = _ from InputDialog.cursor_draw here s]
    exact TextField.showsCursor_iff focused (Nat.sub_pos_of_lt wide) Nat.one_ne_zero
  · obtain ⟨-, enabled, focused⟩ := InspectorPanel.keyed_empty.performAll edits f opened
    have width : editorRect.width = panelPlace.width - 17 := InspectorPanel.width_valueRect ..
    rw [show panelCursor s = _ from InspectorPanel.cursor_draw opened enabled s, ← width]
    exact TextField.showsCursor_iff focused (width ▸ Nat.sub_pos_of_lt panelWide) Nat.one_ne_zero

/-- A field of two cells that has scrolled, with the cursor in the first one; three characters that are pasted into it;
    and an editor of two cells on a value of two digits. -/
theorem terminal_cursor_iff_narrow :
    let engine : Playback := ⟨PlaybackEngine.ofResults [], .ofLit []⟩
    let store := Store.empty.performAll [.assign "A%" (.integer 12)]
    let rig : Playback := ⟨{ PlaybackEngine.ofResults [] with store }, .ofLit []⟩
    let place : CellRect := ⟨1, 1, 6, 8⟩
    let panelPlace : CellRect := ⟨1, 1, 19, 9⟩
    let typed : List (InputDialog.Operation Playback) :=
      [.event engine (.char 'a') place, .event engine (.char 'b') place, .event engine .cursorLeft place]
    let edits : List (InspectorPanel.Operation Playback) :=
      [.enable true store, .focus true, .event rig .enter panelPlace]
    let d := (InputDialog.ofRequest ⟨none, [.string]⟩).performAll typed
    let s := Screen.blank 20 10
    (∃ f, d.fields = [f] ∧ ¬f.ShowsCursor s (d.fieldRect place 0) (d.draw s place).cursor) ∧
      (¬∀ done, done <+: typed ++ [.paste ['x', 'y', 'z']] →
        ∀ f ∈ ((InputDialog.ofRequest ⟨none, [.string]⟩).performAll done).fields, f.InView 2) ∧
      ¬∀ done, done <+: edits → ∀ f, (InspectorPanel.empty.performAll done).editor = some f → f.InView 2 := by
  intro engine store rig place panelPlace typed edits d s
  have same : ∀ engine input bounds, .event engine input bounds ∈ typed ++ [.paste ['x', 'y', 'z']] →
      bounds.width = place.width := by
    intro _ _ bounds member
    simp only [typed, List.cons_append, List.nil_append, List.mem_cons, InputDialog.Operation.event.injEq, reduceCtorEq,
      List.not_mem_nil, or_false] at member
    obtain ⟨-, -, rfl⟩ | ⟨-, -, rfl⟩ | ⟨-, -, rfl⟩ := member <;> rfl
  have panelSame : ∀ engine input bounds, .event engine input bounds ∈ edits → bounds.width = panelPlace.width := by
    intro _ _ bounds member
    simp only [edits, List.mem_cons, InspectorPanel.Operation.event.injEq, reduceCtorEq, List.not_mem_nil, or_false,
      false_or] at member
    exact congrArg _ member.2.2
  have asks : (⟨none, [.string]⟩ : Request).fields ≠ [] := List.cons_ne_nil _ _
  have fields : d.fields = [⟨['a', 'b'], 1, 1, true⟩] := by decide +kernel
  have focus : d.focus = 0 := by decide +kernel
  have room : 4 < place.width ∧ 17 < panelPlace.width := by decide
  have typedSame : ∀ engine input bounds, .event engine input bounds ∈ typed → bounds.width = place.width :=
    fun engine input bounds member => same engine input bounds (List.mem_append_left _ member)
  obtain ⟨-, -, ⟨f, here, shows⟩, -, editor, -⟩ := terminal_cursor_iff asks room.1 room.2 typedSame panelSame
  obtain ⟨-, pasted, -⟩ := terminal_cursor_iff asks room.1 room.2 same panelSame
  have here : d.fields[d.focus]? = some f := here
  rw [fields, focus] at here
  obtain rfl : _ = f := Option.some.inj here
  refine ⟨⟨_, fields, fun shown => ?_⟩, fun seen => ?_, fun seen => ?_⟩
  · have placed : (d.draw s place).cursor = (3, 4) := by decide +kernel
    have there : s.Contains (d.draw s place).cursor.1 (d.draw s place).cursor.2 := by
      rw [placed]
      exact ⟨by decide, by decide, by decide, by decide⟩
    exact absurd ((shows s there).mp (focus.symm ▸ shown)).2 (by decide)
  · have fits := pasted.mp seen typed ['x', 'y', 'z'] _ (List.prefix_refl _) (show d.fields[d.focus]? = _ by
      rw [fields, focus]; rfl)
    exact absurd fits (by decide)
  · obtain ⟨f, opened, long⟩ : ∃ f, (InspectorPanel.empty.performAll edits).editor = some f ∧ f.text.length = 2 :=
      ⟨⟨['1', '2'], 2, 0, true⟩, by decide +kernel, rfl⟩
    have short := editor.mp seen (edits.take 2) (.event rig .enter panelPlace) f (List.prefix_refl _) (by decide +kernel)
      opened
    exact absurd short (long ▸ by decide)

end PocketBasic
