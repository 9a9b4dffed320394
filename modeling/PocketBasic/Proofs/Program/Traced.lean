import PocketBasic.Program.Computer
import PocketBasic.Proofs.Engine.Traced
import PocketBasic.Proofs.Program.Steps
import PocketBasic.Proofs.Program.Typing

/-! # Control characters of a program

What a program says is cut out of its lines, so its names, prompts and messages are traced to them, and so is
the complaint about a line that cannot be read. What the program does with them, and with the answers it gets,
adds none.
-/

namespace PocketBasic

variable {given : List Char}

/-! ## Reading -/

def LineFault.Traced (given : List Char) (fault : LineFault) : Prop := Text.Traced given fault.message.toList

def Operand.Traced (given : List Char) : Operand → Prop
  | .literal _ => True
  | .variable name => Text.Traced given name.toList

def Action.Traced (given : List Char) : Action → Prop
  | .moveCursor x y => x.Traced given ∧ y.Traced given
  | .input request targets =>
      request.Traced given ∧ ∀ name, some name ∈ targets → Text.Traced given name.toList
  | .assign name _ value => Text.Traced given name.toList ∧ value.Traced given
  | .dim name _ | .openFile name => Text.Traced given name.toList
  | .fail message => Text.Traced given message.toList
  | _ => True

def Statement.Traced (given : List Char) : Statement → Prop
  | .act action => action.Traced given
  | .head _ | .foot => True

theorem IntegerFault.traced_message (fault : IntegerFault) : Text.Traced given fault.message.toList := by
  cases fault <;> exact Text.traced_of_plain (by decide)

theorem LineFault.traced_argumentCount (expected found : Nat) : (argumentCount expected found).Traced given :=
  (((Text.traced_toString_nat expected).behind (by decide)).before (by decide)).append
    (Text.traced_toString_nat found)

theorem LineFault.traced_badNumber (fault : IntegerFault) : (badNumber fault).Traced given :=
  fault.traced_message.behind (by decide)

theorem LineFault.traced_badSubscript (fault : IntegerFault) : (badSubscript fault).Traced given :=
  fault.traced_message.behind (by decide)

namespace Statement

open Text

variable {s : List Char}

/-- Reading gives something good, or complains of what is traced. -/
abbrev Reads {α : Type} (given : List Char) (good : α → Prop) : Except LineFault α → Prop :=
  Meets (LineFault.Traced given) good

theorem traced_ofList (traced : Text.Traced given s) : Text.Traced given (String.ofList s).toList := by
  rwa [String.toList_ofList]

theorem reads_numbers (s : List Char) : Reads given (fun _ => True) (numbers s) := by
  have each (w : List Char) :
      Reads given (fun _ => True) ((Number.readNat maxNumber w).mapError .badNumber) :=
    (Meets.trivial (Number.readNat maxNumber w)).mapError fun fault _ => LineFault.traced_badNumber fault
  exact (Meets.mapM fun w _ => each w).weaken fun _ _ => True.intro

theorem reads_number (s : List Char) : Reads given (fun _ => True) (number s) := by
  refine (reads_numbers s).bind fun found _ => ?_
  split
  · trivial
  · exact LineFault.traced_argumentCount 1 _

theorem reads_area (s : List Char) : Reads given (fun _ => True) (area s) := by
  refine (reads_numbers s).bind fun found _ => ?_
  split
  · trivial
  · exact LineFault.traced_argumentCount 4 _

theorem reads_operand (traced : Text.Traced given s) : Reads given (Operand.Traced given) (operand s) := by
  unfold operand
  split
  · exact traced_ofList traced
  · have number : Reads given (fun _ => True) ((Number.readNat maxNumber s).mapError .badNumber) :=
      (Meets.trivial _).mapError fun fault _ => LineFault.traced_badNumber fault
    exact number.map fun _ _ => trivial

theorem reads_subscripts (s : List Char) : Reads given (fun _ => True) (subscripts s) := by
  have each (part : List Char) : Reads given (fun _ : UInt16 => True)
      (((Number.readNat 65535 (trim part)).mapError .badSubscript).map Nat.toUInt16) := by
    have number : Reads given (fun _ => True) ((Number.readNat 65535 (trim part)).mapError .badSubscript) :=
      (Meets.trivial _).mapError fun fault _ => LineFault.traced_badSubscript fault
    exact number.map fun _ _ => trivial
  exact (Meets.mapM fun part _ => each part).weaken fun _ _ => trivial

theorem reads_target (traced : Text.Traced given s) :
    Reads given (fun found => Text.Traced given found.1.toList) (target s) := by
  have checked (name : List Char) (subs : List UInt16) (named : Text.Traced given name) :
      Reads given (fun found : String × List UInt16 => Text.Traced given found.1.toList)
        (if isName name then .ok (String.ofList name, subs) else .error (.badName (String.ofList name))) := by
    split
    · exact traced_ofList named
    · exact (traced_ofList named).behind (by decide)
  unfold target
  split
  · exact checked s [] traced
  · rename_i name rest split
    split
    · exact traced_of_plain (by decide)
    · rename_i inner _
      have parts : Reads given (fun found : List Char × List UInt16 => Text.Traced given found.1)
          ((subscripts inner).map fun subs => (name, subs)) :=
        (reads_subscripts inner).map fun _ _ => traced.of_subset (subset_of_splitFirst split).1
      exact parts.bind fun found named => checked found.1 found.2 named

theorem reads_literal (traced : Text.Traced given s) (type : ValueType) :
    Reads given (Value.Traced given) (literal type s) := by
  unfold literal
  dsimp only
  split
  · rename_i value found
    cases type with
    | integer =>
        obtain ⟨_, _, rfl⟩ := Option.map_eq_some_iff.mp found
        trivial
    | real =>
        obtain ⟨x, _, finite⟩ := Option.bind_eq_some_iff.mp found
        split at finite <;> cases finite
        trivial
    | string =>
        obtain ⟨inner, within, ascii⟩ := Option.bind_eq_some_iff.mp found
        split at ascii <;> cases ascii
        rename_i ascii
        have ascii : ∀ c ∈ inner, c.toNat < 128 := by simpa using ascii
        change DeviceString.Traced given ⟨toBytes inner⟩
        rw [toBytes_eq_asciiBytes ascii]
        exact DeviceString.traced_asciiBytes (traced.of_subset (subset_of_between? within)) ascii
  · exact (traced_ofList traced).behind (by decide)

theorem traced_functionField {kind : FieldKind} (traced : Text.Traced given s)
    (read : functionField? s = some kind) : kind.Traced given := by
  unfold functionField? at read
  obtain ⟨behind, dropped, read⟩ := Option.bind_eq_some_iff.mp read
  obtain ⟨call, closed, read⟩ := Option.bind_eq_some_iff.mp read
  obtain ⟨⟨name, param⟩, split, read⟩ := Option.bind_eq_some_iff.mp read
  have inside := (traced.of_subset (subset_of_dropStart? dropped)).of_subset (subset_of_dropLast? closed)
  obtain ⟨first, second⟩ := subset_of_splitFirst split
  dsimp only at read
  split at read
  · cases read
  · cases read
    exact ⟨traced_ofList (inside.of_subset first), traced_ofList (inside.of_subset second)⟩

theorem reads_field (traced : Text.Traced given s) :
    Reads given (fun found => found.1.Traced given ∧ ∀ name, found.2 = some name → Text.Traced given name.toList)
      (field s) := by
  have unnamed {kind : FieldKind} (traced : kind.Traced given) :
      kind.Traced given ∧ ∀ name, (none : Option String) = some name → Text.Traced given name.toList :=
    ⟨traced, fun _ none => by cases none⟩
  unfold field
  split
  · refine ⟨?_, ?_⟩
    · dsimp only
      cases ValueType.ofName (String.ofList s) <;> trivial
    · rintro _ ⟨⟩
      exact traced_ofList traced
  · split
    · exact unnamed trivial
    · split
      · exact unnamed trivial
      · split
        · exact unnamed trivial
        · split
          · exact unnamed (traced_functionField traced ‹_›)
          · exact (traced_ofList traced).behind (by decide)

theorem reads_prompt (traced : Text.Traced given s) :
    Reads given (fun found => (∀ text, found.1 = some text → Text.Traced given text.toList) ∧ Text.Traced given found.2)
      (prompt s) := by
  unfold prompt
  split
  · split
    · rename_i split
      obtain ⟨first, second⟩ := subset_of_splitFirst split
      have quoted := (traced_cons.mp traced).2
      refine ⟨?_, quoted.of_subset second⟩
      rintro _ ⟨⟩
      exact traced_ofList (quoted.of_subset first)
    · exact traced_of_plain (by decide)
  · exact ⟨nofun, traced⟩

theorem reads_input (traced : Text.Traced given s) : Reads given (Action.Traced given) (input s) := by
  refine (reads_prompt traced).bind fun ⟨prompt, rest⟩ ⟨asked, behind⟩ => ?_
  have each : ∀ word ∈ words rest, Text.Traced given word := fun word member =>
    behind.of_subset (subset_of_mem_words member)
  refine (Meets.mapM fun word member => reads_field (each word member)).bind fun fields read => ?_
  split
  · exact traced_of_plain (by decide)
  · refine ⟨⟨asked, fun kind member => ?_⟩, fun name member => ?_⟩
    · obtain ⟨entry, inside, rfl⟩ := List.mem_map.mp member
      exact (read entry inside).1
    · obtain ⟨entry, inside, named⟩ := List.mem_map.mp member
      exact (read entry inside).2 name named

theorem reads_assignment (traced : Text.Traced given s) : Reads given (Action.Traced given) (assignment s) := by
  unfold assignment
  split
  · exact traced_of_plain (by decide)
  · rename_i split
    obtain ⟨first, second⟩ := subset_of_splitFirst split
    refine (reads_target (traced.of_subset first)).bind fun ⟨name, subs⟩ named => ?_
    have valued := reads_literal ((traced.of_subset second).of_subset (trim_subset _)) (.ofName name)
    exact valued.bind fun value read => ⟨named, read⟩

theorem reads_dimension (traced : Text.Traced given s) : Reads given (Action.Traced given) (dimension s) := by
  refine (reads_target traced).bind fun ⟨name, dims⟩ named => ?_
  dsimp only
  split
  · exact traced_of_plain (by decide)
  · exact named

theorem reads_cursor (traced : Text.Traced given s) : Reads given (Action.Traced given) (cursor s) := by
  unfold cursor
  split
  · rename_i x y split
    have word {w : List Char} (member : w ∈ words s) := reads_operand (traced.of_subset (subset_of_mem_words member))
    refine (word (split ▸ List.mem_cons_self)).bind fun first x => ?_
    refine (word (split ▸ List.mem_cons_of_mem _ List.mem_cons_self)).bind fun second y => ?_
    exact ⟨x, y⟩
  · exact traced_of_plain (by decide)

theorem reads_ofKeyword {keyword : String} (named : Text.Traced given keyword.toList) (traced : Text.Traced given s) :
    Reads given (Statement.Traced given) (ofKeyword keyword s) := by
  unfold ofKeyword
  split
  case h_1 | h_8 | h_13 | h_15 | h_17 => trivial
  case h_2 | h_3 | h_4 => exact (reads_area s).map fun _ _ => trivial
  case h_5 => exact (reads_cursor traced).map fun _ read => read
  case h_6 | h_7 | h_16 => exact (reads_number s).map fun _ _ => trivial
  case h_9 => exact (reads_input traced).map fun _ read => read
  case h_10 => exact (reads_assignment traced).map fun _ read => read
  case h_11 => exact (reads_dimension traced).map fun _ read => read
  case h_12 =>
    split
    · exact traced_of_plain (by decide)
    · exact traced_ofList traced
  case h_14 => exact traced_ofList traced
  case h_18 => exact named.behind (by decide)

theorem reads_read (traced : Text.Traced given s) : Reads given (Statement.Traced given) (Statement.read s) := by
  have parts : Text.Traced given ((splitFirst isBlank s).getD (s, [])).1 ∧
      Text.Traced given ((splitFirst isBlank s).getD (s, [])).2 := by
    cases split : splitFirst isBlank s with
    | none => exact ⟨traced, traced_nil⟩
    | some parts =>
        obtain ⟨first, second⟩ := subset_of_splitFirst split
        exact ⟨traced.of_subset first, traced.of_subset second⟩
  refine reads_ofKeyword ?_ (parts.2.of_subset (trim_subset _))
  exact traced_ofList (parts.1.map toLower_of_isControl)

end Statement

def ScriptError.Traced (given : List Char) (e : ScriptError) : Prop := e.fault.Traced given

/-- What the actions of a program say is traced. -/
abbrev Instruction.Traced (given : List Char) (program : List Instruction) : Prop :=
  ∀ entry ∈ actionsOf program, entry.2.Traced given

namespace Source

open Text

variable {d : Draft}

theorem withoutComment_subset (quoted : Bool) (line : List Char) : withoutComment quoted line ⊆ line := by
  induction line generalizing quoted with
  | nil => exact List.nil_subset _
  | cons c rest ih =>
      unfold withoutComment
      split
      · exact List.nil_subset _
      · exact List.cons_subset_cons c (ih _)

theorem content_subset (line : List Char) : content line ⊆ line :=
  List.Subset.trans (trim_subset _) (withoutComment_subset false line)

/-- What has been read is traced. -/
def Draft.Traced (given : List Char) (d : Draft) : Prop := ∀ entry ∈ d.actions, entry.2.Traced given

theorem meets_add (traced : d.Traced given) (origin : Origin) {statement : Statement}
    (read : statement.Traced given) : Meets (LineFault.Traced given) (Draft.Traced given) (d.add origin statement) := by
  cases added : d.add origin statement with
  | ok later =>
      intro entry member
      rw [Draft.actions_add added] at member
      rcases List.mem_append.mp member with old | new
      · exact traced entry old
      · cases statement with
        | act action =>
            cases List.mem_singleton.mp new
            exact read
        | head | foot => cases new
  | error fault =>
      have unmatched : fault = .nextWithoutRepeat := by
        cases statement with
        | act | head => cases added
        | foot =>
            simp only [Draft.add] at added
            split at added <;> cases added
            rfl
      rw [unmatched]
      exact traced_of_plain (by decide)

theorem meets_addLine (traced : d.Traced given) (index : Nat) {line : List Char} (text : Text.Traced given line) :
    Meets (ScriptError.Traced given) (Draft.Traced given) (addLine d index line) := by
  unfold addLine
  dsimp only
  split
  · exact traced
  · have read := Statement.reads_read (text.of_subset (content_subset line))
    exact (read.bind fun statement said => meets_add traced _ said).mapError fun fault complaint => complaint

theorem meets_addLines (traced : d.Traced given) (index : Nat) {texts : List (List Char)}
    (all : ∀ line ∈ texts, Text.Traced given line) :
    Meets (ScriptError.Traced given) (Draft.Traced given) (addLines d index texts) := by
  induction texts generalizing d index with
  | nil => exact traced
  | cons line rest ih =>
      rw [List.forall_mem_cons] at all
      exact (meets_addLine traced index all.1).bind fun later read => ih read (index + 1) all.2

/-- A program says what its lines say. -/
theorem meets_read {source : List Char} (all : ∀ line ∈ lines source, Text.Traced given line) :
    Meets (ScriptError.Traced given) (Instruction.Traced given) (read source) := by
  have empty : Draft.empty.Traced given := fun entry member => by cases member
  refine (meets_addLines empty 0 all).bind fun d traced => ?_
  unfold Draft.finish
  split
  · rename_i closed
    intro entry member
    refine traced entry ?_
    simpa [Draft.actions, closed] using member
  · change Text.Traced given LineFault.repeatWithoutNext.message.toList
    exact traced_of_plain (by decide)

end Source

end PocketBasic
