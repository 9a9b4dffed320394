import Mathlib.Algebra.Group.Nat.Even
import Mathlib.Data.List.Induction
import PocketBasic.Proofs.Program.Nesting

/-! # What is read as a program

A source text is a program exactly if each of its lines can be read and their loops are balanced. Then the
program has the lines in their order, and otherwise the fault is the first one, where a loop that stays
open counts as found at the end.
-/

namespace PocketBasic.Source

open Text

/-! ## Lines and their text -/

/-- The text goes up to the first `#` that is not within double quotes. -/
structure Uncommented (quoted : Bool) (line text : List Char) : Prop where
  whole : text = line ∨ ∃ comment, line = text ++ '#' :: comment ∧ Even (text.count '"' + quoted.toNat)
  inside : ∀ before after, text = before ++ '#' :: after → ¬ Even (before.count '"' + quoted.toNat)

theorem uncommented_withoutComment (quoted : Bool) (line : List Char) :
    Uncommented quoted line (withoutComment quoted line) := by
  induction line generalizing quoted with
  | nil => exact ⟨.inl rfl, fun before after split => by simp [withoutComment] at split⟩
  | cons c rest ih =>
      unfold withoutComment
      split
      · rename_i comment
        obtain ⟨rfl, rfl⟩ : c = '#' ∧ quoted = false := by simpa using comment
        exact ⟨.inr ⟨rest, rfl, Even.zero⟩, fun before after split => by simp at split⟩
      · rename_i kept
        obtain ⟨whole, inside⟩ := ih (if c = '"' then !quoted else quoted)
        -- The quote that `c` may be counts before the rest of the line or with it.
        have parity (n : Nat) : Even (n + (if c = '"' then !quoted else quoted).toNat) ↔
            Even (n + (if c = '"' then 1 else 0) + quoted.toNat) := by
          cases quoted <;> by_cases quote : c = '"' <;> simp [quote, parity_simps]
        refine ⟨?_, fun before after split => ?_⟩
        · rcases whole with same | ⟨comment, same, even⟩
          · exact .inl (congrArg _ same)
          · refine .inr ⟨comment, congrArg _ same, ?_⟩
            simpa [List.count_cons] using (parity _).mp even
        · cases before with
          | nil =>
              obtain ⟨rfl, _⟩ := List.cons.inj split
              obtain rfl : quoted = true := by simpa using kept
              exact Nat.not_even_one
          | cons first before =>
              obtain ⟨rfl, later⟩ := List.cons.inj split
              simpa [List.count_cons] using mt (parity _).mpr (inside before after later)

/-- Where a line stands, and what it says if it can be read. -/
abbrev Sentence := Origin × Except LineFault Statement

/-- A line that can be read. -/
def valid (line : Origin × Statement) : Sentence := (line.1, .ok line.2)

/-- The sentence of a line with its index; a blank line has none. -/
def sentence? (line : List Char × Nat) : Option Sentence :=
  if (content line.1).isEmpty then none
  else some (⟨line.2, byteLength (trimEnd line.1)⟩, Statement.read (content line.1))

/-- The sentences of a source text, whose lines count from zero. -/
def sentences (source : List Char) : List Sentence :=
  (lines source).zipIdx.filterMap sentence?

variable {d : Draft} {all : List Sentence} {said : List (Origin × Statement)}
  {program : List Instruction} {e : ScriptError} {source : List Char}

theorem valid_injective : Function.Injective valid := by
  rintro ⟨origin, statement⟩ ⟨other, meant⟩ same
  cases same
  rfl

/-! ## Faults -/

/-- Every line before this one can be read and no foot is without its head, but this one cannot be
    read, or is a foot without a head. -/
inductive Stopped : List Sentence → ScriptError → Prop
  | invalid {before : List (Origin × Statement)} {origin : Origin} {fault : LineFault}
      {after : List Sentence} : Headed before →
      Stopped (before.map valid ++ (origin, .error fault) :: after) ⟨origin.line, fault⟩
  | unmatched {before : List (Origin × Statement)} {origin : Origin} {after : List Sentence} :
      Headed before → feet before = heads before →
      Stopped (before.map valid ++ (origin, .ok .foot) :: after) ⟨origin.line, .nextWithoutRepeat⟩

/-- Every line can be read and no foot is without its head, but the head of a loop has no foot, and
    the loops behind it are closed. -/
inductive Unclosed : List Sentence → ScriptError → Prop
  | head {before inner : List (Origin × Statement)} {origin : Origin} {count : Nat} :
      Headed (before ++ (origin, .head count) :: inner) → Balanced inner →
      Unclosed ((before ++ (origin, .head count) :: inner).map valid)
        ⟨origin.line, .repeatWithoutNext⟩

theorem Stopped.append (stopped : Stopped all e) (more : List Sentence) : Stopped (all ++ more) e := by
  cases stopped with
  | invalid headed =>
      rw [List.append_assoc]
      exact .invalid headed
  | unmatched headed closed =>
      rw [List.append_assoc]
      exact .unmatched headed closed

theorem headed_or_stopped (all : List Sentence) :
    (∃ said, all = said.map valid ∧ Headed said) ∨ ∃ e, Stopped all e := by
  induction all using List.reverseRecOn with
  | nil => exact .inl ⟨[], rfl, headed_nil⟩
  | append_singleton rest sentence ih =>
      rcases ih with ⟨said, rfl, headed⟩ | ⟨e, stopped⟩
      · obtain ⟨origin, _ | statement⟩ := sentence
        · exact .inr ⟨_, .invalid headed⟩
        · by_cases whole : Headed (said ++ [(origin, statement)])
          · exact .inl ⟨_, by simp [valid], whole⟩
          · have matched : feet said ≤ heads said := headed said (List.prefix_refl _)
            have unmatched : ¬ feet (said ++ [(origin, statement)]) ≤ heads (said ++ [(origin, statement)]) :=
              fun counts => whole (headed_concat.mpr ⟨headed, counts⟩)
            cases statement with
            | act action =>
                simp [feet, heads] at matched unmatched
                omega
            | head count =>
                simp [feet, heads] at matched unmatched
                omega
            | foot =>
                refine .inr ⟨_, .unmatched headed ?_⟩
                simp [feet, heads] at matched unmatched ⊢
                omega
      · exact .inr ⟨e, stopped.append _⟩

/-! ## Reading -/

/-- Adds what a line says. -/
def Draft.take (d : Draft) (sentence : Sentence) : Except ScriptError Draft :=
  (do d.add sentence.1 (← sentence.2) : Except LineFault Draft).mapError (⟨sentence.1.line, ·⟩)

def Draft.takeAll (d : Draft) (all : List Sentence) : Except ScriptError Draft :=
  all.foldlM take d

theorem addLines_eq (d : Draft) (index : Nat) (texts : List (List Char)) :
    addLines d index texts = d.takeAll ((texts.zipIdx index).filterMap sentence?) := by
  induction texts generalizing d index with
  | nil => rfl
  | cons line rest ih =>
      rw [List.zipIdx_cons, addLines]
      unfold addLine
      by_cases blank : (content line).isEmpty
      · simp [sentence?, blank, ih]
        rfl
      · simp [sentence?, blank, ih]
        rfl

theorem read_eq (source : List Char) :
    read source = (Draft.empty.takeAll (sentences source)).bind Draft.finish := by
  unfold read
  rw [addLines_eq]
  rfl

namespace Draft

theorem takeAll_append (d : Draft) (all more : List Sentence) :
    d.takeAll (all ++ more) = (d.takeAll all).bind fun later => later.takeAll more :=
  List.foldlM_append

theorem takeAll_cons (d : Draft) (sentence : Sentence) (more : List Sentence) :
    d.takeAll (sentence :: more) = (d.take sentence).bind fun later => later.takeAll more :=
  List.foldlM_cons

theorem take_valid (d : Draft) (line : Origin × Statement) :
    d.take (valid line) = (d.add line.1 line.2).mapError (⟨line.1.line, ·⟩) :=
  rfl

/-- What nests is added to the innermost body, however many loops are open. -/
theorem takeAll_nested (nested : Nested said program) (d : Draft) :
    d.takeAll (said.map valid) = .ok ⟨d.loops, program.reverse ++ d.current⟩ := by
  induction nested generalizing d with
  | nil => rfl
  | @act origin action rest program _ ih =>
      rw [List.map_cons, takeAll_cons]
      exact (ih ⟨d.loops, .act origin action :: d.current⟩).trans (by simp)
  | @loop head foot count inner rest body program _ _ inside ih =>
      have opened : d.takeAll (valid (head, .head count) :: inner.map valid) =
          .ok ⟨⟨head, count, d.current⟩ :: d.loops, body.reverse⟩ := by
        rw [takeAll_cons]
        exact (inside ⟨⟨head, count, d.current⟩ :: d.loops, []⟩).trans (by simp)
      rw [List.map_append, takeAll_append, List.map_cons, opened]
      -- The foot puts the body in order before it puts it behind what stands before the head.
      have closed := ih ⟨d.loops, .loop head count body.reverse.reverse :: d.current⟩
      exact closed.trans (by simp)

theorem exists_takeAll (headed : Headed said) :
    ∃ d, Draft.empty.takeAll (said.map valid) = .ok d ∧ d.Holds said := by
  induction said using List.reverseRecOn with
  | nil => exact ⟨.empty, rfl, .closed .nil⟩
  | append_singleton rest line ih =>
      obtain ⟨headed, counts⟩ := headed_concat.mp headed
      obtain ⟨d, taken, holds⟩ := ih headed
      rcases holds.add line with ⟨later, added, holds⟩ | ⟨closed, foot, _⟩
      · refine ⟨later, ?_, holds⟩
        rw [List.map_append, takeAll_append, taken]
        change (d.take (valid line)).bind _ = _
        rw [take_valid, added]
        rfl
      · simp [feet, heads, foot] at closed counts
        omega

theorem takeAll_stopped (stopped : Stopped all e) : Draft.empty.takeAll all = .error e := by
  cases stopped with
  | invalid headed =>
      obtain ⟨d, taken, _⟩ := exists_takeAll headed
      rw [takeAll_append, taken]
      rfl
  | unmatched headed closed =>
      obtain ⟨d, taken, holds⟩ := exists_takeAll headed
      obtain ⟨loops, current⟩ := d
      have none := holds.heads_eq
      obtain rfl : loops = [] := List.length_eq_zero_iff.mp (by simp only at none; omega)
      rw [takeAll_append, taken]
      rfl

end Draft

/-! ## Programs and faults -/

theorem Nested.balanced (nested : Nested said program) : Balanced said := by
  refine ⟨?_, nested.feet_eq⟩
  rcases headed_or_stopped (said.map valid) with ⟨other, same, headed⟩ | ⟨e, stopped⟩
  · rwa [List.map_injective_iff.mpr valid_injective same]
  · have whole := Draft.takeAll_nested nested .empty
    rw [Draft.takeAll_stopped stopped] at whole
    cases whole

/-- Lines that do not stop the reading are those of a program, unless a head has no foot. -/
theorem Draft.Holds.nested_or_unclosed (holds : d.Holds said) (headed : Headed said) :
    (∃ program, Nested said program) ∨
      feet said < heads said ∧ ∃ e, Unclosed (said.map valid) e := by
  have counts := holds.heads_eq
  cases holds with
  | closed nested => exact .inl ⟨_, nested⟩
  | within _ nested =>
      refine .inr ⟨?_, _, .head headed nested.balanced⟩
      simp only [List.length_cons] at counts
      omega

theorem Balanced.nested (balanced : Balanced said) : ∃ program, Nested said program := by
  obtain ⟨d, _, holds⟩ := Draft.exists_takeAll balanced.1
  rcases holds.nested_or_unclosed balanced.1 with ⟨program, nested⟩ | ⟨more, _⟩
  · exact ⟨program, nested⟩
  · exact absurd balanced.2 (Nat.ne_of_lt more)

theorem read_of_nested (meant : sentences source = said.map valid) (nested : Nested said program) :
    read source = .ok program := by
  rw [read_eq, meant, Draft.takeAll_nested nested]
  simp [Draft.empty, Except.bind, Draft.finish]

theorem finish_unclosed (unclosed : Unclosed all e) :
    (Draft.empty.takeAll all).bind Draft.finish = .error e := by
  cases unclosed with
  | @head before inner origin count headed balanced =>
      obtain ⟨d, taken, _⟩ := Draft.exists_takeAll headed.left
      obtain ⟨body, nested⟩ := balanced.nested
      have opened : d.takeAll (valid (origin, .head count) :: inner.map valid) = _ :=
        Draft.takeAll_nested nested ⟨⟨origin, count, d.current⟩ :: d.loops, []⟩
      rw [List.map_append, Draft.takeAll_append, taken, List.map_cons]
      change (d.takeAll _).bind _ = _
      rw [opened]
      rfl

/-- The first fault of the lines. -/
def FirstFault (all : List Sentence) (e : ScriptError) : Prop :=
  Stopped all e ∨ Unclosed all e

theorem read_of_firstFault (fault : FirstFault (sentences source) e) : read source = .error e := by
  rw [read_eq]
  rcases fault with stopped | unclosed
  · rw [Draft.takeAll_stopped stopped]
    rfl
  · exact finish_unclosed unclosed

theorem nested_or_firstFault (all : List Sentence) :
    (∃ said program, all = said.map valid ∧ Nested said program) ∨ ∃ e, FirstFault all e := by
  rcases headed_or_stopped all with ⟨said, rfl, headed⟩ | ⟨e, stopped⟩
  · obtain ⟨d, _, holds⟩ := Draft.exists_takeAll headed
    rcases holds.nested_or_unclosed headed with ⟨program, nested⟩ | ⟨_, e, unclosed⟩
    · exact .inl ⟨said, program, rfl, nested⟩
    · exact .inr ⟨e, .inr unclosed⟩
  · exact .inr ⟨e, .inl stopped⟩

theorem read_ok_iff :
    read source = .ok program ↔ ∃ said, sentences source = said.map valid ∧ Nested said program := by
  constructor
  · intro accepted
    rcases nested_or_firstFault (sentences source) with ⟨said, other, meant, nested⟩ | ⟨e, fault⟩
    · have same := read_of_nested meant nested
      rw [accepted] at same
      cases same
      exact ⟨said, meant, nested⟩
    · rw [read_of_firstFault fault] at accepted
      cases accepted
  · rintro ⟨said, meant, nested⟩
    exact read_of_nested meant nested

/-- The actions of a program are what its lines say. -/
theorem mem_sentences_of_mem_actionsOf (accepted : read source = .ok program) {entry : Origin × Action}
    (member : entry ∈ Instruction.actionsOf program) : valid (entry.1, .act entry.2) ∈ sentences source := by
  obtain ⟨said, meant, nested⟩ := read_ok_iff.mp accepted
  rw [meant]
  exact List.mem_map_of_mem (nested.mem_of_mem_actionsOf member)

theorem read_error_iff : read source = .error e ↔ FirstFault (sentences source) e := by
  constructor
  · intro failed
    rcases nested_or_firstFault (sentences source) with ⟨said, program, meant, nested⟩ | ⟨other, fault⟩
    · rw [read_of_nested meant nested] at failed
      cases failed
    · rw [read_of_firstFault fault] at failed
      cases failed
      exact fault
  · exact read_of_firstFault

/-- A text is read exactly if each of its lines can be and their loops are balanced. The program then nests as
    the lines do, and lists them in their order, all but the feet, each with its index and its length. If it is
    not read, the error is the first fault, and every first fault is the error. What a line says stands
    before its comment. -/
theorem reads_balanced_sentences (source : List Char) :
    ((∃ program, read source = .ok program) ↔
      ∃ said, sentences source = said.map valid ∧ Balanced said) ∧
    (∀ program, read source = .ok program ↔
      ∃ said, sentences source = said.map valid ∧ Nested said program ∧
        Instruction.listingOf program = said.filter fun line => !(line.2 matches .foot)) ∧
    (∀ e, read source = .error e ↔ FirstFault (sentences source) e) ∧
    ∀ line, Uncommented false line (withoutComment false line) := by
  refine ⟨⟨?_, ?_⟩, fun program => ?_, fun e => read_error_iff,
    fun line => uncommented_withoutComment false line⟩
  · rintro ⟨program, accepted⟩
    obtain ⟨said, meant, nested⟩ := read_ok_iff.mp accepted
    exact ⟨said, meant, nested.balanced⟩
  · rintro ⟨said, meant, balanced⟩
    obtain ⟨program, nested⟩ := balanced.nested
    exact ⟨program, read_of_nested meant nested⟩
  · rw [read_ok_iff]
    constructor
    · rintro ⟨said, meant, nested⟩
      exact ⟨said, meant, nested, nested.listing_eq⟩
    · rintro ⟨said, meant, nested, _⟩
      exact ⟨said, meant, nested⟩

end PocketBasic.Source
