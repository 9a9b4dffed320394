import PocketBasic.Playback
import PocketBasic.Proofs.Dialog.Fields
import PocketBasic.Proofs.Inspector.Editing
import PocketBasic.Proofs.Store.Operations
import PocketBasic.Proofs.Terminal.Decoding
import PocketBasic.Proofs.TextField.Cursor

/-! # Control characters that are typed

Bytes and texts that a terminal sends are no characters unless they can be printed, but a sequence that names a code
point is taken at its word. So there are reads that put a control character into a text field, and these sequences
are all of them.
-/

namespace PocketBasic

open Number

namespace Key

variable {bytes : List UInt8} {c : Char}

/-- The bytes are a sequence that names the code point of a control character without the control key. Return, tab,
    escape and backspace are keys of their own. -/
def NamesControl (bytes : List UInt8) : Prop :=
  ∃ first others code, bytes = 27 :: 91 :: sequence (first :: others) 117 ∧
    (∀ part ∈ first :: others, ';' ∉ part) ∧ Denotes first code ∧ (code < 32 ∨ 127 ≤ code ∧ code ≤ 159) ∧
    code ∉ [9, 13, 27, 127] ∧ hasBit ((others.head?.bind number?).getD 1 - 1) 4 = false

/-- A read is taken for a control character exactly if it is a sequence that names one. -/
theorem ofBytes_eq_control_iff_namesControl :
    (∃ c, ofBytes bytes = .char c ∧ isControl c = true) ↔ NamesControl bytes := by
  constructor
  · rintro ⟨c, key, control⟩
    obtain ⟨body, rfl, read⟩ := (ofBytes_eq_control_iff control).mp key
    obtain ⟨first, others, code, rfl, plain, ⟨denotes, -⟩, named⟩ := ofSequence?_eq_char_iff.mp read
    obtain ⟨other, noControl, rfl⟩ := ofCodePoint?_eq_char_iff.mp named
    refine ⟨first, others, c.toNat, rfl, plain, denotes, isControl_iff.mp control, ?_, noControl⟩
    simp only [NamesKey, not_or] at other
    simp [other]
  · rintro ⟨first, others, code, rfl, plain, denotes, range, other, noControl⟩
    have valid : code.isValidChar := .inl (by omega)
    have number : (Char.ofNat code).toNat = code := Text.toNat_ofNat valid
    have control : isControl (Char.ofNat code) = true := isControl_iff.mpr (number.symm ▸ range)
    refine ⟨Char.ofNat code, (ofBytes_eq_control_iff control).mpr ⟨_, rfl, ?_⟩, control⟩
    refine ofSequence?_eq_char_iff.mpr ⟨first, others, code, rfl, plain, ⟨denotes, by omega⟩, ?_⟩
    refine ofCodePoint?_eq_char_iff.mpr ⟨?_, noControl, number⟩
    simp only [List.mem_cons, List.not_mem_nil, or_false, not_or] at other
    simp only [NamesKey]
    omega

end Key

/-! ## Fields -/

open Text

variable {bytes : List UInt8} {c : Char} {f : TextField} {input : Input}

theorem Text.traced_nil_iff {s : List Char} : Traced [] s ↔ isPlain s = true := by
  simp [Traced, isPlain_iff]

theorem Input.ofKey_eq_char_iff {key : Key} : ofKey key = .char c ↔ key = .char c := by
  cases key with
  | ctrl letter =>
      unfold ofKey
      split <;> simp_all
  | mouse report =>
      refine iff_of_false ?_ nofun
      simp only [ofKey, ofMouse]
      split <;> nofun
  | _ => simp [ofKey]

/-- What a read types can be printed, unless it names a control character. -/
theorem isPlain_typed_iff : isPlain (Input.ofKey (Key.ofBytes bytes)).typed = true ↔ ¬Key.NamesControl bytes := by
  rw [← Key.ofBytes_eq_control_iff_namesControl]
  cases typed : Input.ofKey (Key.ofBytes bytes) with
  | char c =>
      rw [Input.ofKey_eq_char_iff] at typed
      simp [typed, Input.typed, isPlain]
  | _ =>
      refine iff_of_true rfl ?_
      rintro ⟨c, key, -⟩
      rw [Input.ofKey_eq_char_iff.mpr key] at typed
      cases typed

namespace TextField

/-- The text can be printed, and the cursor is in it. -/
structure Clean (f : TextField) : Prop where
  within : f.Within
  plain : isPlain f.text = true

theorem Clean.handle (clean : f.Clean) (typed : isPlain input.typed = true) (rect : CellRect) :
    (f.handle input rect).2.Clean := by
  refine ⟨clean.within.handle input rect, ?_⟩
  rw [← Text.traced_nil_iff] at typed ⊢
  exact traced_handle (Text.traced_nil_iff.mpr clean.plain) typed rect

theorem not_plain_insertChar (within : f.Within) (control : Key.isControl c = true) (width : Nat) :
    ¬isPlain ((f.insertChar c).showCursor width).text = true := by
  intro plain
  rw [text_showCursor, isPlain_iff] at plain
  have typed := plain c ((List.mem_insertIdx within).mpr (.inl rfl))
  exact Bool.false_ne_true (typed.symm.trans control)

end TextField

variable {σ : Type} [Engine σ]

/-- Whatever happens to a dialog, the cursors of its fields are in the texts. -/
theorem InputDialog.keyed_within {r : Request} (asks : r.fields ≠ []) (ops : List (Operation σ)) :
    Keyed TextField.Within ((ofRequest r).performAll ops) := by
  induction ops using List.reverseRecOn with
  | nil => exact .ofRequest asks fun _ => Nat.le_refl 0
  | append_singleton done op ih =>
      rw [performAll_concat]
      exact ih.perform (fun _ _ within => within) (fun _ input _ _ f within rect _ => within.handle input rect)
        fun text _ f _ within => within.insertText text

/-- What is typed into a dialog can be printed, all along, exactly if no read names a control character. -/
theorem InputDialog.plain_typed_iff {r : Request} {ops : List (Operation σ)} (asks : r.fields ≠ [])
    (typed : ∀ op ∈ ops, ∃ engine bytes bounds, op = .event engine (.ofKey (.ofBytes bytes)) bounds) :
    (∀ done, done <+: ops → ∀ f ∈ ((ofRequest r).performAll done).fields, isPlain f.text = true) ↔
      ∀ engine bytes bounds, .event engine (.ofKey (.ofBytes bytes)) bounds ∈ ops → ¬Key.NamesControl bytes := by
  constructor
  · intro plain engine bytes bounds member named
    obtain ⟨done, first⟩ := exists_prefix_of_mem member
    have within := keyed_within asks done
    obtain ⟨f, here, -⟩ := within.exists_focused
    obtain ⟨c, key, control⟩ := Key.ofBytes_eq_control_iff_namesControl.mpr named
    have after := within.handle_char here engine c bounds
    have event : ((ofRequest r).performAll (done ++ [.event engine (.ofKey (.ofBytes bytes)) bounds])) =
        (((ofRequest r).performAll done).handle engine (.char c) bounds).2.1 := by
      rw [performAll_concat, key]
      rfl
    exact TextField.not_plain_insertChar (within.fields f (List.mem_of_getElem? here)) control _
      (plain _ first _ (event ▸ List.mem_of_getElem? after))
  · intro quiet
    have clean : ∀ done, done <+: ops → Keyed TextField.Clean ((ofRequest r).performAll done) := by
      refine forall_prefix (.ofRequest asks fun _ => ⟨Nat.le_refl 0, rfl⟩) fun done op first before => ?_
      have member := first.subset (List.mem_append_right done List.mem_cons_self)
      obtain ⟨engine, bytes, bounds, rfl⟩ := typed op member
      rw [performAll_concat]
      refine before.perform (fun f _ clean => ⟨clean.within, clean.plain⟩) ?_ nofun
      rintro _ _ _ ⟨⟩ f clean rect -
      exact clean.handle (isPlain_typed_iff.mpr (quiet engine bytes bounds member)) rect
    exact fun done first f member => ((clean done first).fields f member).plain

/-- Whatever happens to a panel, the cursor of its editor is in the text. -/
theorem InspectorPanel.within_editor (ops : List (Operation σ)) {f : TextField}
    (opened : (empty.performAll ops).editor = some f) : f.Within := by
  induction ops using List.reverseRecOn generalizing f with
  | nil => cases opened
  | append_singleton done op ih =>
      rw [performAll_concat] at opened
      obtain before | ⟨-, text, rfl⟩ | ⟨g, _, input, _, before, -, rect, -, rfl⟩ :=
        (keyed_empty.performAll done).editor_perform opened
      · exact ih before
      · exact TextField.Within.insertText (f := .empty) (Nat.le_refl 0) text
      · exact (ih before).handle input rect

/-- What an editor of the inspector holds can be printed, all along, exactly if what it opens with can be printed and
    no read names a control character while it is open. -/
theorem InspectorPanel.plain_typed_iff {ops : List (Operation σ)}
    (typed : ∀ engine input bounds, .event engine input bounds ∈ ops → ∃ bytes, input = .ofKey (.ofBytes bytes)) :
    (∀ done, done <+: ops → ∀ f, (empty.performAll done).editor = some f → isPlain f.text = true) ↔
      (∀ done op f, done ++ [op] <+: ops → (empty.performAll done).editor = none →
        (empty.performAll (done ++ [op])).editor = some f → isPlain f.text = true) ∧
      ∀ done engine bytes bounds, done ++ [.event engine (.ofKey (.ofBytes bytes)) bounds] <+: ops →
        (empty.performAll done).editor.isSome = true → ¬Key.NamesControl bytes := by
  constructor
  · intro plain
    refine ⟨fun done op f first _ opened => plain _ first f opened, fun done engine bytes bounds first opened named => ?_⟩
    obtain ⟨f, opened⟩ := Option.isSome_iff_exists.mp opened
    obtain ⟨c, key, control⟩ := Key.ofBytes_eq_control_iff_namesControl.mpr named
    have after := (keyed_empty.performAll done).handle_char opened engine c bounds
    have event : empty.performAll (done ++ [.event engine (.ofKey (.ofBytes bytes)) bounds]) =
        ((empty.performAll done).handle engine (.char c) bounds).2.1 := by
      rw [performAll_concat, key]
      rfl
    exact TextField.not_plain_insertChar (within_editor done opened) control _ (plain _ first _ (event ▸ after))
  · rintro ⟨fresh, quiet⟩
    refine forall_prefix nofun fun done op first before g opened => ?_
    have step := opened
    rw [performAll_concat] at step
    obtain same | ⟨closed, -⟩ | ⟨f, engine, input, bounds, edits, rfl, rect, -, rfl⟩ :=
      (keyed_empty.performAll done).editor_perform step
    · exact before g same
    · exact fresh done op g first closed opened
    · obtain ⟨bytes, rfl⟩ := typed engine input bounds
        (first.subset (List.mem_append_right done List.mem_cons_self))
      have quiet := quiet done engine bytes bounds first (Option.isSome_of_eq_some edits)
      have clean : f.Clean := ⟨within_editor done edits, before f edits⟩
      exact (clean.handle (isPlain_typed_iff.mpr quiet) rect).plain

/-- The reads that are taken for a control character are the sequences that name one. As long as none of them comes, what
    is typed into dialogs and editors can be printed; the first that comes puts its character into the text. -/
theorem typed_control_iff {r : Request} {ops : List (InputDialog.Operation σ)}
    {edits : List (InspectorPanel.Operation σ)} (asks : r.fields ≠ [])
    (typed : ∀ op ∈ ops, ∃ engine bytes bounds, op = .event engine (.ofKey (.ofBytes bytes)) bounds)
    (sent : ∀ engine input bounds, .event engine input bounds ∈ edits → ∃ bytes, input = .ofKey (.ofBytes bytes)) :
    (∀ bytes, (∃ c, Key.ofBytes bytes = .char c ∧ Key.isControl c = true) ↔ Key.NamesControl bytes) ∧
      ((∀ done, done <+: ops → ∀ f ∈ ((InputDialog.ofRequest r).performAll done).fields, isPlain f.text = true) ↔
        ∀ engine bytes bounds, .event engine (.ofKey (.ofBytes bytes)) bounds ∈ ops → ¬Key.NamesControl bytes) ∧
      let panel (done : List (InspectorPanel.Operation σ)) := InspectorPanel.empty.performAll done
      ((∀ done, done <+: edits → ∀ f, (panel done).editor = some f → isPlain f.text = true) ↔
        (∀ done op f, done ++ [op] <+: edits → (panel done).editor = none → (panel (done ++ [op])).editor = some f →
          isPlain f.text = true) ∧
        ∀ done engine bytes bounds, done ++ [.event engine (.ofKey (.ofBytes bytes)) bounds] <+: edits →
          (panel done).editor.isSome = true → ¬Key.NamesControl bytes) :=
  ⟨fun _ => Key.ofBytes_eq_control_iff_namesControl, InputDialog.plain_typed_iff asks typed,
    InspectorPanel.plain_typed_iff sent⟩

/-- The sequence for code point 10, which is that of a line feed, typed into a dialog of one field and into the editor of
    a variable. -/
theorem typed_control_iff_lineFeed :
    let engine : Playback := ⟨PlaybackEngine.ofResults [], .ofLit []⟩
    let store := Store.empty.performAll [.assign "A%" (.integer 1)]
    let rig : Playback := ⟨{ PlaybackEngine.ofResults [] with store }, .ofLit []⟩
    let bounds : CellRect := ⟨1, 1, 52, 9⟩
    let lineFeed : Input := .ofKey (.ofBytes [27, 91, 49, 48, 117])
    let ops : List (InputDialog.Operation Playback) := [.event engine lineFeed bounds]
    let edits : List (InspectorPanel.Operation Playback) :=
      [.enable true store, .focus true, .event rig .enter bounds, .event rig lineFeed bounds]
    (∃ c, Key.ofBytes [27, 91, 49, 48, 117] = .char c ∧ Key.isControl c = true) ∧
      (¬∀ done, done <+: ops → ∀ f ∈ ((InputDialog.ofRequest ⟨none, [.string]⟩).performAll done).fields,
        isPlain f.text = true) ∧
      ¬∀ done, done <+: edits → ∀ f, (InspectorPanel.empty.performAll done).editor = some f → isPlain f.text = true := by
  intro engine store rig bounds lineFeed ops edits
  have named : Key.NamesControl [27, 91, 49, 48, 117] :=
    ⟨Nat.toDigits 10 10, [], 10, by decide, by decide, denotes_toDigits 10, by decide, by decide, by decide⟩
  have sent : ∀ engine input bounds, .event engine input bounds ∈ edits → ∃ bytes, input = .ofKey (.ofBytes bytes) := by
    intro _ input _ member
    simp only [edits, List.mem_cons, reduceCtorEq, InspectorPanel.Operation.event.injEq, List.not_mem_nil, or_false,
      false_or] at member
    obtain ⟨-, rfl, -⟩ | ⟨-, rfl, -⟩ := member
    · exact ⟨[13], rfl⟩
    · exact ⟨_, rfl⟩
  have asks : (⟨none, [.string]⟩ : Request).fields ≠ [] := List.cons_ne_nil _ _
  have typed : ∀ op ∈ ops, ∃ engine bytes bounds, op = .event engine (.ofKey (.ofBytes bytes)) bounds :=
    fun op member => ⟨engine, _, bounds, List.mem_singleton.mp member⟩
  obtain ⟨reads, fields, editor⟩ := typed_control_iff asks typed sent
  refine ⟨(reads _).mpr named, fun plain => ?_, fun plain => ?_⟩
  · exact fields.mp plain engine _ bounds List.mem_cons_self named
  · exact (editor.mp plain).2 (edits.take 3) rig _ bounds (List.prefix_refl _) (by decide +kernel) named

end PocketBasic
