import Mathlib.Data.List.Forall2
import PocketBasic.Program.Source

/-! # Typed programs

A source text that is read has types: a value stands in an assignment only to a name of its type, and a
field that names a variable asks for a value of the variable's type. And no two actions come from one
line, so the line of a fault tells which one failed.
-/

namespace PocketBasic

/-- The field asks for what the variable that it names can hold. -/
def FieldKind.Suits (kind : FieldKind) (target : Option String) : Prop :=
  ∀ name, target = some name → kind = (ValueType.ofName name).fieldKind

/-- The types in an action agree. -/
def Action.IsTyped : Action → Prop
  | .assign name _ value => value.type = .ofName name
  | .input request targets => List.Forall₂ FieldKind.Suits request.fields targets
  | _ => True

section Except

variable {ε α β : Type} {x : Except ε α}

theorem exists_of_bind_ok {f : α → Except ε β} {b : β} (bound : x >>= f = .ok b) :
    ∃ a, x = .ok a ∧ f a = .ok b := by
  cases x with
  | error => cases bound
  | ok a => exact ⟨a, rfl, bound⟩

theorem exists_of_map_ok {f : α → β} {b : β} (mapped : x.map f = .ok b) : ∃ a, x = .ok a ∧ f a = b := by
  cases x with
  | error => cases mapped
  | ok a => exact ⟨a, rfl, Except.ok.inj mapped⟩

theorem ok_of_mapError_ok {f : ε → α} {b : β} {x : Except ε β} (mapped : x.mapError f = .ok b) :
    x = .ok b := by
  cases x with
  | error => cases mapped
  | ok => exact congrArg _ (Except.ok.inj mapped)

theorem exists_of_mapM_ok {f : α → Except ε β} {items : List α} {results : List β}
    (mapped : items.mapM f = .ok results) : ∀ b ∈ results, ∃ a ∈ items, f a = .ok b := by
  induction items generalizing results with
  | nil =>
      cases mapped
      exact fun b member => by cases member
  | cons a rest ih =>
      rw [List.mapM_cons] at mapped
      obtain ⟨first, read, more⟩ := exists_of_bind_ok mapped
      obtain ⟨others, later, whole⟩ := exists_of_bind_ok more
      cases whole
      refine List.forall_mem_cons.mpr ⟨⟨a, List.mem_cons_self, read⟩, fun b member => ?_⟩
      obtain ⟨origin, inside, came⟩ := ih later b member
      exact ⟨origin, List.mem_cons_of_mem _ inside, came⟩

theorem eq_ok_getD (read : x.toBool = true) (default : α) : x = .ok (x.toOption.getD default) := by
  cases x with
  | error => cases read
  | ok => rfl

end Except

namespace Statement

variable {s : List Char}

theorem type_literal {type : ValueType} {value : Value} (read : literal type s = .ok value) :
    value.type = type := by
  unfold literal at read
  dsimp only at read
  split at read
  · rename_i found
    cases read
    cases type with
    | integer =>
        obtain ⟨_, _, rfl⟩ := Option.map_eq_some_iff.mp found
        rfl
    | real =>
        obtain ⟨x, _, finite⟩ := Option.bind_eq_some_iff.mp found
        split at finite <;> cases finite
        rfl
    | string =>
        obtain ⟨inner, _, ascii⟩ := Option.bind_eq_some_iff.mp found
        split at ascii <;> cases ascii
        rfl
  · cases read

theorem isTyped_assignment {action : Action} (read : assignment s = .ok action) : action.IsTyped := by
  unfold assignment at read
  split at read
  · cases read
  · obtain ⟨⟨name, subs⟩, _, read⟩ := exists_of_bind_ok read
    obtain ⟨value, valued, read⟩ := exists_of_bind_ok read
    cases read
    exact type_literal valued

theorem suits_field {entry : FieldKind × Option String} (read : field s = .ok entry) :
    entry.1.Suits entry.2 := by
  unfold field at read
  split at read
  · cases read
    rintro name ⟨⟩
    rfl
  · have unnamed (kind : FieldKind) : kind.Suits none := fun name named => by cases named
    split at read
    · cases read
      exact unnamed _
    · split at read
      · cases read
        exact unnamed _
      · split at read
        · cases read
          exact unnamed _
        · split at read <;> cases read
          exact unnamed _

theorem isTyped_input {action : Action} (read : input s = .ok action) : action.IsTyped := by
  unfold input at read
  obtain ⟨⟨prompt, rest⟩, _, read⟩ := exists_of_bind_ok read
  obtain ⟨fields, found, read⟩ := exists_of_bind_ok read
  split at read
  · cases read
  · cases read
    rw [Action.IsTyped, List.forall₂_map_left_iff, List.forall₂_map_right_iff, List.forall₂_same]
    intro entry member
    obtain ⟨word, _, read⟩ := exists_of_mapM_ok found entry member
    exact suits_field read

theorem isTyped_dimension {action : Action} (read : dimension s = .ok action) : action.IsTyped := by
  unfold dimension at read
  obtain ⟨⟨name, dims⟩, _, read⟩ := exists_of_bind_ok read
  dsimp only at read
  split at read <;> cases read
  trivial

theorem isTyped_cursor {action : Action} (read : cursor s = .ok action) : action.IsTyped := by
  unfold cursor at read
  split at read
  · obtain ⟨x, _, read⟩ := exists_of_bind_ok read
    obtain ⟨y, _, ⟨⟩⟩ := exists_of_bind_ok read
    trivial
  · cases read

theorem isTyped_ofKeyword {keyword : String} {action : Action}
    (read : ofKeyword keyword s = .ok (.act action)) : action.IsTyped := by
  unfold ofKeyword at read
  split at read
  case h_1 | h_8 | h_13 | h_14 | h_15 =>
    cases read
    trivial
  case h_2 | h_3 | h_4 | h_6 | h_7 =>
    obtain ⟨_, _, ⟨⟩⟩ := exists_of_map_ok read
    trivial
  case h_5 =>
    obtain ⟨_, found, ⟨⟩⟩ := exists_of_map_ok read
    exact isTyped_cursor found
  case h_9 =>
    obtain ⟨_, found, ⟨⟩⟩ := exists_of_map_ok read
    exact isTyped_input found
  case h_10 =>
    obtain ⟨_, found, ⟨⟩⟩ := exists_of_map_ok read
    exact isTyped_assignment found
  case h_11 =>
    obtain ⟨_, found, ⟨⟩⟩ := exists_of_map_ok read
    exact isTyped_dimension found
  case h_12 =>
    split at read <;> cases read
    trivial
  case h_16 => obtain ⟨_, _, ⟨⟩⟩ := exists_of_map_ok read
  case h_17 | h_18 => cases read

/-- The action of a statement, if it is one. -/
def actions (origin : Origin) : Statement → List (Origin × Action)
  | .act action => [(origin, action)]
  | .head _ | .foot => []

theorem isTyped_read {action : Action} (read : Statement.read s = .ok (.act action)) :
    action.IsTyped := isTyped_ofKeyword read

end Statement

mutual

/-- The actions of an instruction and the lines they come from, in the order of the text. -/
def Instruction.actions : Instruction → List (Origin × Action)
  | .act origin action => [(origin, action)]
  | .loop _ _ body => Instruction.actionsOf body

def Instruction.actionsOf : List Instruction → List (Origin × Action)
  | [] => []
  | i :: rest => i.actions ++ Instruction.actionsOf rest

end

theorem Instruction.actionsOf_append (first second : List Instruction) :
    actionsOf (first ++ second) = actionsOf first ++ actionsOf second := by
  induction first with
  | nil => rfl
  | cons i rest ih => simp [actionsOf, ih]

/-- The actions come from different lines, and the types in each agree. -/
structure Sound (entries : List (Origin × Action)) : Prop where
  lines : entries.Pairwise fun first second => first.1.line < second.1.line
  typed : ∀ entry ∈ entries, entry.2.IsTyped

/-- At most one action comes from a line. -/
theorem Sound.unique {entries : List (Origin × Action)} (sound : Sound entries) {first second : Origin × Action}
    (one : first ∈ entries) (other : second ∈ entries) (same : first.1.line = second.1.line) :
    first = second := by
  have lines := sound.lines
  clear sound
  induction entries with
  | nil => cases one
  | cons head rest ih =>
      obtain ⟨after, lines⟩ := List.pairwise_cons.mp lines
      rcases List.mem_cons.mp one with rfl | one <;> rcases List.mem_cons.mp other with rfl | other
      · rfl
      · exact absurd same (Nat.ne_of_lt (after second other))
      · exact absurd same.symm (Nat.ne_of_lt (after first ‹_›))
      · exact ih ‹_› other lines

namespace Source

/-- The actions that have been read, in the order of the text. -/
def Draft.actions (d : Draft) : List (Origin × Action) :=
  d.loops.reverse.flatMap (fun l => Instruction.actionsOf l.before.reverse) ++
    Instruction.actionsOf d.current.reverse

/-- Only a line with an action adds one; the head and the foot of a loop move what there is. -/
theorem Draft.actions_add {d later : Draft} {origin : Origin} {statement : Statement}
    (added : d.add origin statement = .ok later) :
    later.actions = d.actions ++ statement.actions origin := by
  cases statement with
  | act action =>
      cases added
      simp [actions, Statement.actions, Instruction.actionsOf_append, Instruction.actionsOf,
        Instruction.actions]
  | head count =>
      cases added
      simp [actions, Statement.actions, Instruction.actionsOf]
  | foot =>
      simp only [Draft.add] at added
      split at added
      · cases added
      · -- The body goes behind what stood before its head, which is where the text has it.
        rename_i loop loops opened
        cases added
        simp [actions, opened, Statement.actions, Instruction.actionsOf_append,
          Instruction.actionsOf, Instruction.actions]

/-- What has been read of the lines before an index. -/
structure Draft.Sound (d : Draft) (index : Nat) : Prop extends PocketBasic.Sound d.actions where
  before : ∀ entry ∈ d.actions, entry.1.line < index

theorem Draft.Sound.add {d later : Draft} {index width : Nat} {statement : Statement}
    (sound : d.Sound index) (typed : ∀ action, statement = .act action → action.IsTyped)
    (added : d.add ⟨index, width⟩ statement = .ok later) : later.Sound (index + 1) := by
  have new : ∀ entry ∈ statement.actions ⟨index, width⟩, entry.1.line = index ∧ entry.2.IsTyped := by
    intro entry member
    cases statement with
    | act action =>
        cases List.mem_singleton.mp member
        exact ⟨rfl, typed action rfl⟩
    | head | foot => cases member
  have single : (statement.actions ⟨index, width⟩).Pairwise fun first second =>
      first.1.line < second.1.line := by
    cases statement with
    | act => exact List.pairwise_singleton _ _
    | head | foot => exact .nil
  have whole := d.actions_add added
  refine ⟨⟨?_, ?_⟩, ?_⟩ <;> rw [whole]
  · refine List.pairwise_append.mpr ⟨sound.lines, single, fun old inside entry member => ?_⟩
    rw [(new entry member).1]
    exact sound.before old inside
  · exact List.forall_mem_append.mpr ⟨sound.typed, fun entry member => (new entry member).2⟩
  · refine List.forall_mem_append.mpr ⟨fun entry member => ?_, fun entry member => ?_⟩
    · exact Nat.lt_succ_of_lt (sound.before entry member)
    · rw [(new entry member).1]
      exact Nat.lt_succ_self index

theorem sound_addLine {d later : Draft} {index : Nat} {line : List Char} (sound : d.Sound index)
    (added : addLine d index line = .ok later) : later.Sound (index + 1) := by
  unfold addLine at added
  dsimp only at added
  split at added
  · cases added
    exact { sound with before := fun entry member => Nat.lt_succ_of_lt (sound.before entry member) }
  · obtain ⟨statement, read, added⟩ := exists_of_bind_ok (ok_of_mapError_ok added)
    exact sound.add (fun action same => Statement.isTyped_read (same ▸ read)) added

theorem sound_addLines {d later : Draft} {index : Nat} {texts : List (List Char)}
    (sound : d.Sound index) (added : addLines d index texts = .ok later) :
    ∃ last, later.Sound last := by
  induction texts generalizing d index with
  | nil =>
      cases added
      exact ⟨index, sound⟩
  | cons line rest ih =>
      obtain ⟨next, first, others⟩ := exists_of_bind_ok added
      exact ih (sound_addLine sound first) others

/-- Every program that is read is sound. -/
theorem sound_read {source : List Char} {program : List Instruction}
    (accepted : read source = .ok program) : Sound (Instruction.actionsOf program) := by
  obtain ⟨draft, added, finished⟩ := exists_of_bind_ok accepted
  have empty : Draft.empty.Sound 0 := by
    refine ⟨⟨.nil, ?_⟩, ?_⟩ <;> exact fun entry member => by cases member
  obtain ⟨last, sound⟩ := sound_addLines empty added
  unfold Draft.finish at finished
  split at finished
  · rename_i closed
    cases finished
    simpa [Draft.actions, closed] using sound.toSound
  · cases finished

end Source

end PocketBasic
