import PocketBasic.Proofs.Editor.Reading
import PocketBasic.Proofs.Program.Places
import PocketBasic.Proofs.Text.Bytes

/-! # Marks and the lines they are on

A fault of a run is on the line of the action that has failed, up to the blanks at its end, and a fault of the text is
on all of the faulty line. Either way the mark is on a line of the pane and stops at one of its characters.
-/

namespace PocketBasic

open Text

/-- The span goes from the start of one of the lines up to one of its characters. -/
def Span.On (lines : List (List Char)) (span : Span) : Prop :=
  ∃ line shown, lines[span.line]? = some line ∧ shown <+: line ∧ span.start = 0 ∧ span.stop = byteLength shown

/-- The fault is of the action that one of the lines says, and on that line. -/
def RunFault.At (lines : List (List Char)) (fault : RunFault) : Prop :=
  ∃ index line action, lines[index]? = some line ∧ Statement.read (Source.content line) = .ok (.act action) ∧
    action.Fails ⟨index, byteLength (trimEnd line)⟩ fault

/-- The mark says what is wrong with the line that it is on. -/
inductive Mark.About (lines : List (List Char)) : Mark → Prop
  | fault {fault : RunFault} : fault.At lines → About lines ⟨fault.span, fault.message⟩
  | scriptError {index : Nat} {line : List Char} {fault : LineFault} : lines[index]? = some line →
      Source.content line ≠ [] → Source.AtFault line fault →
      About lines ⟨⟨index, 0, byteLength line⟩, fault.message⟩

variable {lines : List (List Char)} {span : Span} {fault : RunFault} {mark : Mark}

theorem Span.On.stop_le (on : span.On lines) :
    ∃ line, lines[span.line]? = some line ∧ span.stop ≤ byteLength line := by
  obtain ⟨line, shown, here, start, -, stop⟩ := on
  exact ⟨line, here, stop ▸ byteLength_le_of_isPrefix start⟩

theorem RunFault.At.on (found : fault.At lines) : fault.span.On lines := by
  obtain ⟨index, line, action, here, -, fails⟩ := found
  rw [fails.span]
  exact ⟨line, trimEnd line, here, trimEnd_isPrefix line, rfl, rfl⟩

theorem Mark.About.on (about : mark.About lines) : mark.span.On lines := by
  cases about with
  | fault found => exact found.on
  | @scriptError _ line _ here => exact ⟨line, line, here, List.prefix_refl line, rfl, rfl⟩

namespace Editor

variable {e : Editor} {text : String} {program : List Instruction} {error : ScriptError}

/-- A text that cannot be read has a line that is at fault. -/
theorem atFault_of_read (shown : e.lines = linesOf text) (refused : Source.read e.source.toList = .error error) :
    ∃ line, e.lines[error.line]? = some line ∧ Source.content line ≠ [] ∧ Source.AtFault line error.fault := by
  have fault := Source.read_error_iff.mp refused
  rw [(sentences_source shown).1] at fault
  exact Source.atFault_of_firstFault fault

theorem mark_showScriptError {line : List Char} (here : e.lines[error.line]? = some line) :
    (e.showScriptError error.line error.message).mark = some ⟨⟨error.line, 0, byteLength line⟩, error.message⟩ := by
  rw [showScriptError, here]

/-- An action of the program that is read from the pane fails on its line. -/
theorem at_of_blamed (shown : e.lines = linesOf text) (accepted : Source.read e.source.toList = .ok program)
    (blamed : Blamed (Instruction.actionsOf program) fault) : fault.At e.lines := by
  obtain ⟨origin, action, member, fails⟩ := blamed
  have sentence := Source.mem_sentences_of_mem_actionsOf accepted member
  rw [(sentences_source shown).1] at sentence
  obtain ⟨line, here, -, same⟩ := Source.exists_line_of_mem sentence
  obtain ⟨place, read⟩ := Prod.mk.inj same
  rw [show origin = ⟨origin.line, byteLength (trimEnd line)⟩ from place] at fails
  exact ⟨origin.line, line, action, here, read.symm, fails⟩

end Editor

/-! ## Loaded programs -/

/-- A computer with the program of a text, after anything that can be asked of it. -/
inductive Computer.Reached (source : String) : Computer → Prop
  | loaded {c : Computer} (accepted : Computer.load source = .ok c) : Reached source c
  | exec {c : Computer} (resume : Resume) (maxTicks : Nat) :
      Reached source c → Reached source (c.exec resume maxTicks).2
  | stop {c : Computer} : Reached source c → Reached source c.stop.2
  | reset {c : Computer} : Reached source c → Reached source c.reset
  | compile {c : Computer} (units : List UInt16) : Reached source c → Reached source (c.compile units).2
  | withStore {c : Computer} (store : Store) : Reached source c → Reached source (Engine.withStore c store)
  | handset {c : Computer} (f : Handset → Handset) : Reached source c → Reached source (c.mapHandset f)

theorem Computer.faithful_of_load {source : String} {c : Computer} (accepted : Computer.load source = .ok c) :
    Source.read source.toList = .ok c.program ∧ c.Faithful := by
  obtain ⟨program, read, rfl⟩ := exists_of_map_ok accepted
  exact ⟨read, faithful_ofProgram program⟩

theorem Computer.Reached.faithful {source : String} {c : Computer} (reached : Reached source c) :
    Source.read source.toList = .ok c.program ∧ c.Faithful := by
  induction reached with
  | loaded accepted => exact faithful_of_load accepted
  | exec resume maxTicks _ ih => exact ⟨ih.1, (ih.2.exec resume maxTicks).1⟩
  | stop _ ih => exact ⟨ih.1, nofun⟩
  | reset _ ih => exact ⟨ih.1, faithful_reset _⟩
  | compile | withStore | handset => assumption

/-- A computer that has got the text of a pane, in whatever state it is, fails on a line of the pane. -/
theorem Editor.at_of_reached {e : Editor} {text : String} {c : Computer} (shown : e.lines = linesOf text)
    (reached : Computer.Reached text c) {resume : Resume} {maxTicks : Nat}
    (failed : (c.exec resume maxTicks).1 = .failed fault) : fault.At e.lines := by
  obtain ⟨accepted, faithful⟩ := reached.faithful
  rw [← read_source shown] at accepted
  exact at_of_blamed shown accepted ((faithful.exec resume maxTicks).2 fault failed)

end PocketBasic
