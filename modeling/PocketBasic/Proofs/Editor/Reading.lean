import PocketBasic.Editor
import PocketBasic.Proofs.Program.Reading
import PocketBasic.Proofs.Text.Lines
import PocketBasic.Proofs.Text.Traced

/-! # Reading the program from its pane

The engine does not get the text of the file but the lines of the pane, joined again. It reads the same program from
them or finds the same fault, and the lines that it counts are those of the pane.
-/

namespace PocketBasic

namespace Source

open Text

variable {line shown : List Char} {texts : List (List Char)} {all : List Sentence} {source : List Char}
  {e : ScriptError}

/-! ## Lines and what they say -/

theorem withoutComment_concat {c : Char} (other : c ≠ '#') (quoted : Bool) (line : List Char) :
    withoutComment quoted (line ++ [c]) = withoutComment quoted line ∨
      withoutComment quoted (line ++ [c]) = withoutComment quoted line ++ [c] := by
  induction line generalizing quoted with
  | nil =>
      refine .inr ?_
      simp [withoutComment, other]
  | cons d rest ih =>
      rw [List.cons_append, withoutComment, withoutComment]
      split
      · exact .inl rfl
      · exact (ih _).imp (congrArg _) (congrArg _)

/-- A carriage return at the end of a line says nothing and does not count. -/
theorem sentence?_upToReturn (same : UpToReturn line shown) (index : Nat) :
    sentence? (shown, index) = sentence? (line, index) := by
  rcases same with rfl | rfl
  · rfl
  · have white : isBlank '\r' = true := by decide
    have said : content (shown ++ ['\r']) = content shown := by
      unfold content
      rcases withoutComment_concat (c := '\r') (by decide) false shown with kept | added
      · rw [kept]
      · rw [added, trim_concat white]
    rw [sentence?, sentence?, said, trimEnd_concat white]

/-- Lines that are joined and split again say the same. -/
theorem sentences_joinLines (unbroken : ∀ line ∈ texts, '\n' ∉ line) (index : Nat) :
    ((lines (joinLines texts)).zipIdx index).filterMap sentence? = (texts.zipIdx index).filterMap sentence? := by
  induction texts using joinLines.induct generalizing index with
  | case1 => rfl
  | case2 line =>
      rw [joinLines, lines_of_unbroken (unbroken line List.mem_cons_self)]
      split
      · rename_i empty
        rw [empty]
        rfl
      · rfl
  | case3 line more nonempty ih =>
      obtain ⟨first, others⟩ := List.forall_mem_cons.mp unbroken
      obtain ⟨shown, split, same⟩ := exists_lines_append_feed first (joinLines more)
      rw [joinLines, split, List.zipIdx_cons, List.zipIdx_cons, List.filterMap_cons, List.filterMap_cons,
        sentence?_upToReturn same, ih others]
      exact nonempty

/-- A sentence is that of the line with its index. -/
theorem exists_line_of_mem {sentence : Sentence} (member : sentence ∈ texts.zipIdx.filterMap sentence?) :
    ∃ line, texts[sentence.1.line]? = some line ∧ content line ≠ [] ∧
      sentence = (⟨sentence.1.line, byteLength (trimEnd line)⟩, Statement.read (content line)) := by
  obtain ⟨⟨line, index⟩, inside, same⟩ := List.mem_filterMap.mp member
  unfold sentence? at same
  split at same
  · cases same
  · rename_i spoken
    cases same
    refine ⟨line, ?_, fun empty => spoken (List.isEmpty_iff.mpr empty), rfl⟩
    exact List.mem_zipIdx_iff_getElem?.mp inside

/-! ## Faults -/

/-- What is wrong with a line: it cannot be read, or it is the foot or the head of a loop that lacks the other. -/
inductive AtFault (line : List Char) : LineFault → Prop
  | unread {fault : LineFault} : Statement.read (content line) = .error fault → AtFault line fault
  | foot : Statement.read (content line) = .ok .foot → AtFault line .nextWithoutRepeat
  | head {count : Nat} : Statement.read (content line) = .ok (.head count) → AtFault line .repeatWithoutNext

/-- The fault is in the line that it names. -/
theorem atFault_of_firstFault (fault : FirstFault (texts.zipIdx.filterMap sentence?) e) :
    ∃ line, texts[e.line]? = some line ∧ content line ≠ [] ∧ AtFault line e.fault := by
  have named {origin : Origin} {said : Except LineFault Statement}
      (member : (origin, said) ∈ texts.zipIdx.filterMap sentence?) :
      ∃ line, texts[origin.line]? = some line ∧ content line ≠ [] ∧ Statement.read (content line) = said := by
    obtain ⟨line, here, spoken, same⟩ := exists_line_of_mem member
    exact ⟨line, here, spoken, (Prod.mk.inj same).2.symm⟩
  generalize sentences : texts.zipIdx.filterMap sentence? = all at fault named
  rcases fault with stopped | unclosed
  · cases stopped with
    | invalid =>
        obtain ⟨line, here, spoken, read⟩ := named (List.mem_append_right _ List.mem_cons_self)
        exact ⟨line, here, spoken, .unread read⟩
    | unmatched =>
        obtain ⟨line, here, spoken, read⟩ := named (List.mem_append_right _ List.mem_cons_self)
        exact ⟨line, here, spoken, .foot read⟩
  · cases unclosed with
    | head =>
        obtain ⟨line, here, spoken, read⟩ :=
          named (List.mem_map_of_mem (f := valid) (List.mem_append_right _ List.mem_cons_self))
        exact ⟨line, here, spoken, .head read⟩

end Source

namespace Editor

variable {e : Editor} {text : String}

theorem unbroken_of_mem_linesOf {line : List Char} (member : line ∈ linesOf text) : '\n' ∉ line := by
  unfold linesOf at member
  split at member
  · rw [List.mem_singleton.mp member]
    exact List.not_mem_nil
  · exact fun inside => (Text.mem_of_mem_lines member inside).2 rfl

/-- The lines that the engine reads are those of the pane, and those of the file. -/
theorem sentences_source (shown : e.lines = linesOf text) :
    Source.sentences e.source.toList = e.lines.zipIdx.filterMap Source.sentence? ∧
      Source.sentences e.source.toList = Source.sentences text.toList := by
  have pane : Source.sentences e.source.toList = e.lines.zipIdx.filterMap Source.sentence? := by
    rw [source, String.toList_ofList, shown]
    exact Source.sentences_joinLines (fun line => unbroken_of_mem_linesOf) 0
  refine ⟨pane, ?_⟩
  rw [pane, shown, linesOf, Source.sentences]
  split
  · rename_i none
    rw [none]
    rfl
  · rfl

theorem read_source (shown : e.lines = linesOf text) : Source.read e.source.toList = Source.read text.toList := by
  rw [Source.read_eq, Source.read_eq, (sentences_source shown).2]

end Editor

end PocketBasic
