import PocketBasic.Proofs.Dialog.Acceptance
import PocketBasic.Proofs.Inspector.Commit
import PocketBasic.Proofs.Program.Reading
import PocketBasic.Proofs.Program.TracedRuns
import PocketBasic.Proofs.Program.TypeSafety

/-! # Where the strings of a script come from

A variable gets its value from a line of the script, from an answer or from the inspector. Whoever brings it, the
store takes it by one of its operations, and a string that is brought consists of ASCII characters: a literal is
checked for that when the script is read, and a typed text when it is encoded. So every store of a script is what
some operations make of an empty one, and its strings are ASCII.
-/

namespace PocketBasic

/-- The bytes are those of ASCII characters. -/
def DeviceString.IsAscii (s : DeviceString) : Prop :=
  ∃ text, s.bytes = Text.asciiBytes text ∧ ∀ c ∈ text, c.toNat < 128

def Value.IsAscii : Value → Prop
  | .string s => s.IsAscii
  | .integer _ | .real _ => True

def Answer.IsAscii : Answer → Prop
  | .string s => s.IsAscii
  | .integer _ | .real _ | .func _ => True

/-- A literal of an assignment is ASCII. -/
def Action.IsAscii : Action → Prop
  | .assign _ _ value => value.IsAscii
  | _ => True

/-- The actions of a program are ASCII. -/
abbrev Instruction.IsAscii (program : List Instruction) : Prop :=
  ∀ entry ∈ actionsOf program, entry.2.IsAscii

/-! ## Stores -/

namespace Store

/-- The value that an operation brings. -/
def Operation.value? : Operation → Option Value
  | .assign _ value | .modify _ value | .setElement _ _ value => some value
  | .dim _ _ => none

/-- Every value is ASCII. -/
structure IsAscii (s : Store) : Prop where
  scalars : ∀ name value, s.scalars.find? name = some value → value.IsAscii
  arrays : ∀ name a, s.arrays.find? name = some a → ∀ value ∈ a.values, value.IsAscii

/-- One store is made of the other by operations that bring ASCII values. -/
def LeadsTo (s later : Store) : Prop :=
  ∃ os : List Operation, later = s.performAll os ∧ ∀ o ∈ os, ∀ value, o.value? = some value → value.IsAscii

variable {s later last : Store} {o : Operation} {name : String} {value : Value} {subs : Subscripts}

namespace LeadsTo

theorem refl (s : Store) : s.LeadsTo s := ⟨[], rfl, nofun⟩

theorem trans (first : s.LeadsTo later) (second : later.LeadsTo last) : s.LeadsTo last := by
  obtain ⟨os, rfl, brought⟩ := first
  obtain ⟨more, rfl, others⟩ := second
  exact ⟨os ++ more, (List.foldl_append ..).symm, List.forall_mem_append.mpr ⟨brought, others⟩⟩

theorem of_attempt (done : s.attempt o = .ok later) (brought : ∀ value, o.value? = some value → value.IsAscii) :
    s.LeadsTo later := by
  refine ⟨[o], ?_, List.forall_mem_singleton.mpr brought⟩
  rw [performAll, List.foldl_cons, perform_ok done]
  rfl

theorem assign (ascii : value.IsAscii) (assigned : s.assign name value = .ok later) : s.LeadsTo later :=
  of_attempt (o := .assign name value) (by rw [attempt, assigned]; rfl) fun _ same => Option.some.inj same ▸ ascii

theorem modify (ascii : value.IsAscii) (modified : s.modify name value = .ok later) : s.LeadsTo later :=
  of_attempt (o := .modify name value) (by rw [attempt, modified]; rfl) fun _ same => Option.some.inj same ▸ ascii

theorem setElement (ascii : value.IsAscii) (changed : s.setElement name subs value = .ok later) : s.LeadsTo later :=
  of_attempt (o := .setElement name subs value) (by rw [attempt, changed]; rfl) fun _ same =>
    Option.some.inj same ▸ ascii

theorem dim {dims : Dimensions} (bound : s.dim name dims = .bound later) : s.LeadsTo later :=
  of_attempt (o := .dim name dims) (by rw [attempt, bound]) nofun

theorem typed (leads : s.LeadsTo later) (typed : s.Typed) : later.Typed := by
  obtain ⟨os, rfl, _⟩ := leads
  exact typed.performAll os

theorem sized (leads : s.LeadsTo later) (sized : s.Sized) : later.Sized := by
  obtain ⟨os, rfl, _⟩ := leads
  exact sized.performAll os

end LeadsTo

namespace IsAscii

theorem zero (type : ValueType) : (Value.zero type).IsAscii := by
  cases type with
  | integer | real => trivial
  | string => exact ⟨[], rfl, nofun⟩

theorem empty : Store.empty.IsAscii := by
  constructor
  all_goals
    intro name found entry
    cases entry

theorem attempt (ascii : s.IsAscii) (done : s.attempt o = .ok later)
    (brought : ∀ value, o.value? = some value → value.IsAscii) : later.IsAscii := by
  cases attempted done with
  | assign | modify => exact ⟨NameTable.forall_insert ascii.scalars (brought _ rfl), ascii.arrays⟩
  | dim =>
      refine ⟨ascii.scalars, NameTable.forall_insert ascii.arrays fun v member => ?_⟩
      rw [ArrayVar.eq_of_mem_replicate member]
      exact zero _
  | setElement found =>
      refine ⟨ascii.scalars, NameTable.forall_insert ascii.arrays fun v member => ?_⟩
      rcases Array.mem_or_eq_of_mem_setIfInBounds member with old | rfl
      · exact ascii.arrays _ _ found v old
      · exact brought v rfl

theorem perform (ascii : s.IsAscii) (brought : ∀ value, o.value? = some value → value.IsAscii) :
    (s.perform o).2.IsAscii := by
  cases done : s.attempt o with
  | error refusal => rwa [perform_error done]
  | ok later =>
      rw [perform_ok done]
      exact ascii.attempt done brought

theorem performAll (ascii : s.IsAscii) {os : List Operation}
    (brought : ∀ o ∈ os, ∀ value, o.value? = some value → value.IsAscii) : (s.performAll os).IsAscii := by
  induction os generalizing s with
  | nil => exact ascii
  | cons o rest ih =>
      obtain ⟨first, others⟩ := List.forall_mem_cons.mp brought
      exact ih (ascii.perform first) others

theorem get? (ascii : s.IsAscii) (found : s.get? name = some value) : value.IsAscii :=
  ascii.scalars name value found

theorem element? (ascii : s.IsAscii) (found : s.element? name subs = some value) : value.IsAscii := by
  obtain ⟨a, bound, inside⟩ := Option.bind_eq_some_iff.mp found
  exact ascii.arrays name a bound value (ArrayVar.mem_of_element? inside)

end IsAscii

theorem LeadsTo.isAscii (leads : s.LeadsTo later) (ascii : s.IsAscii) : later.IsAscii := by
  obtain ⟨os, rfl, brought⟩ := leads
  exact ascii.performAll brought

end Store

/-! ## Lines -/

/-- Every action of a program is read from some text. -/
theorem Source.exists_read_of_mem {source : List Char} {program : List Instruction}
    (accepted : read source = .ok program) {entry : Origin × Action} (member : entry ∈ Instruction.actionsOf program) :
    ∃ text, Statement.read text = .ok (.act entry.2) := by
  have sentence := mem_sentences_of_mem_actionsOf accepted member
  obtain ⟨line, _, same⟩ := List.mem_filterMap.mp sentence
  unfold sentence? at same
  split at same
  · cases same
  · exact ⟨_, (Prod.mk.inj (Option.some.inj same)).2⟩

namespace Statement

open Text

variable {s : List Char}

theorem isAscii_literal {type : ValueType} {value : Value} (read : literal type s = .ok value) : value.IsAscii := by
  unfold literal at read
  dsimp only at read
  split at read
  · cases read
    rename_i found
    cases type with
    | integer =>
        obtain ⟨_, _, rfl⟩ := Option.map_eq_some_iff.mp found
        trivial
    | real =>
        obtain ⟨x, _, finite⟩ := Option.bind_eq_some_iff.mp found
        split at finite <;> cases finite
        trivial
    | string =>
        obtain ⟨inner, _, ascii⟩ := Option.bind_eq_some_iff.mp found
        split at ascii <;> cases ascii
        rename_i ascii
        have ascii : ∀ c ∈ inner, c.toNat < 128 := by simpa using ascii
        exact ⟨inner, toBytes_eq_asciiBytes ascii, ascii⟩
  · cases read

theorem isAscii_assignment {action : Action} (read : assignment s = .ok action) : action.IsAscii := by
  unfold assignment at read
  split at read
  · cases read
  · obtain ⟨⟨name, subs⟩, _, read⟩ := exists_of_bind_ok read
    obtain ⟨value, found, ⟨⟩⟩ := exists_of_bind_ok read
    exact isAscii_literal found

/-- Of all the keywords, one gives an action with a literal. -/
theorem isAscii_ofKeyword {keyword : String} {action : Action}
    (read : ofKeyword keyword s = .ok (.act action)) : action.IsAscii := by
  unfold ofKeyword at read
  split at read
  case h_1 | h_8 | h_13 | h_14 | h_15 =>
    cases read
    trivial
  case h_2 | h_3 | h_4 | h_6 | h_7 =>
    obtain ⟨_, _, ⟨⟩⟩ := exists_of_map_ok read
    trivial
  case h_5 =>
    obtain ⟨_, found, ⟨⟩⟩ := exists_of_map_ok read
    unfold cursor at found
    split at found
    · obtain ⟨x, _, found⟩ := exists_of_bind_ok found
      obtain ⟨y, _, ⟨⟩⟩ := exists_of_bind_ok found
      trivial
    · cases found
  case h_9 =>
    obtain ⟨_, found, ⟨⟩⟩ := exists_of_map_ok read
    obtain ⟨_, _, found⟩ := exists_of_bind_ok found
    obtain ⟨_, _, found⟩ := exists_of_bind_ok found
    split at found <;> cases found
    trivial
  case h_10 =>
    obtain ⟨_, found, ⟨⟩⟩ := exists_of_map_ok read
    exact isAscii_assignment found
  case h_11 =>
    obtain ⟨_, found, ⟨⟩⟩ := exists_of_map_ok read
    obtain ⟨_, _, found⟩ := exists_of_bind_ok found
    dsimp only at found
    split at found <;> cases found
    trivial
  case h_12 =>
    split at read <;> cases read
    trivial
  case h_16 => obtain ⟨_, _, ⟨⟩⟩ := exists_of_map_ok read
  case h_17 | h_18 => cases read

end Statement

theorem Source.isAscii_read {source : List Char} {program : List Instruction} (accepted : read source = .ok program) :
    Instruction.IsAscii program := fun _ member => by
  obtain ⟨text, read⟩ := exists_read_of_mem accepted member
  exact Statement.isAscii_ofKeyword read

/-! ## Runs -/

/-- The actions that the job may still come to are ASCII. -/
def Job.IsAscii : Job → Prop
  | .block rest => Instruction.IsAscii rest
  | .passes _ body => Instruction.IsAscii body
  | .ticks _ | .awaitKey | .awaitAnswers _ _ _ => True

abbrev Jobs.IsAscii (jobs : List Job) : Prop := ∀ job ∈ jobs, job.IsAscii

def Resume.IsAscii : Resume → Prop
  | .answers values => ∀ value ∈ values, value.IsAscii
  | .nothing | .key _ => True

theorem World.isAscii_answerValue {answer : Answer} {value : Value} (ascii : answer.IsAscii)
    (valued : answerValue? answer = some value) : value.IsAscii := by
  cases answer with
  | integer | real =>
      cases valued
      trivial
  | string =>
      cases valued
      exact ascii
  | func => cases valued

theorem World.leadsTo_storeAnswers (store : Store) {values : List Answer} (ascii : ∀ value ∈ values, value.IsAscii)
    (targets : List (Option String)) : store.LeadsTo (storeAnswers store values targets).2 := by
  induction values generalizing store targets with
  | nil => exact .refl store
  | cons value rest ih =>
      obtain ⟨first, others⟩ := List.forall_mem_cons.mp ascii
      cases targets with
      | nil => exact .refl store
      | cons target targets =>
          unfold storeAnswers
          split
          · rename_i valued
            split
            · rename_i assigned
              exact (Store.LeadsTo.assign (isAscii_answerValue first valued) assigned).trans (ih _ others targets)
            · exact .refl store
          · exact ih _ others targets

namespace Step

/-- The store changes by operations that bring ASCII values, and what is left to do is ASCII. -/
def Brings (w : World) (result : Step × World) : Prop :=
  w.store.LeadsTo result.2.store ∧
    match result.1 with
    | .tick jobs | .wait _ jobs => Jobs.IsAscii jobs
    | .fail _ | .done => True

variable {w : World} {jobs : List Job}

theorem brings_enterLoop {body : List Instruction} (left : Nat) (inside : Instruction.IsAscii body)
    (rest : Jobs.IsAscii jobs) : Brings w (enterLoop left body jobs, w) := by
  refine ⟨.refl _, ?_⟩
  cases left with
  | zero => exact rest
  | succ left => exact List.forall_mem_cons.mpr ⟨inside, List.forall_mem_cons.mpr ⟨inside, rest⟩⟩

theorem brings_ofAction (origin : Origin) {action : Action} (ascii : action.IsAscii) (rest : Jobs.IsAscii jobs) :
    Brings w (ofAction w origin jobs action) := by
  have same {result : Step × World} (step : match result.1 with
      | .tick jobs | .wait _ jobs => Jobs.IsAscii jobs
      | .fail _ | .done => True) (store : result.2.store = w.store) : Brings w result :=
    ⟨store ▸ .refl _, step⟩
  cases action with
  | clearScreen | fill | clear | invert => exact same rest rfl
  | moveCursor x y =>
      simp only [ofAction]
      split
      · exact same trivial rfl
      · split
        · exact same trivial rfl
        · exact same rest rfl
  | work n =>
      refine same ?_ rfl
      dsimp only [ofAction]
      split
      · exact rest
      · exact List.forall_mem_cons.mpr ⟨trivial, rest⟩
  | sleep | inkey | input => exact same (List.forall_mem_cons.mpr ⟨trivial, rest⟩) rfl
  | assign name subs value =>
      simp only [ofAction]
      split
      · rename_i stored
        split at stored
        · exact ⟨.assign ascii stored, rest⟩
        · exact ⟨.setElement ascii stored, rest⟩
      · exact same trivial rfl
  | dim name dims =>
      simp only [ofAction]
      split
      · exact ⟨.dim ‹_›, rest⟩
      · exact same trivial rfl
      · exact same rest rfl
  | openFile | closeFile =>
      simp only [ofAction]
      split
      all_goals first | exact same trivial rfl | exact same rest rfl
  | fail | finish => exact same trivial rfl

theorem brings_ofAnswers (origin : Origin) (request : Request) (targets : List (Option String)) {resume : Resume}
    (ascii : resume.IsAscii) (rest : Jobs.IsAscii jobs) :
    Brings w (ofAnswers w origin request targets jobs resume) := by
  have refused {fault : RunFault} : Brings w (.fail fault, w) := ⟨.refl _, trivial⟩
  unfold ofAnswers
  dsimp only
  split
  · split
    · have leads := World.leadsTo_storeAnswers w.store ascii targets
      split
      · exact ⟨leads, rest⟩
      · exact ⟨leads, trivial⟩
    · exact refused
  · exact refused

theorem brings_next {resume : Resume} (ascii : resume.IsAscii) (rest : Jobs.IsAscii jobs) :
    Brings w (next w resume jobs) := by
  refine next_cases (motive := fun jobs result => Jobs.IsAscii jobs → Brings w result) w resume
    jobs ?done ?through ?acted ?entered ?passed ?worked ?ticked ?keyed ?keyless ?answered rest
  case done => exact fun _ => ⟨.refl _, trivial⟩
  case through | worked => exact fun jobs ih rest => ih (List.forall_mem_cons.mp rest).2
  case acted =>
    intro origin action body jobs rest
    obtain ⟨inside, rest⟩ := List.forall_mem_cons.mp rest
    obtain ⟨said, later⟩ := List.forall_mem_cons.mp inside
    exact brings_ofAction origin said (List.forall_mem_cons.mpr ⟨later, rest⟩)
  case entered =>
    intro origin count body more jobs rest
    obtain ⟨inside, rest⟩ := List.forall_mem_cons.mp rest
    obtain ⟨within, later⟩ := List.forall_mem_append.mp inside
    exact brings_enterLoop count within (List.forall_mem_cons.mpr ⟨later, rest⟩)
  case passed =>
    intro left body jobs rest
    obtain ⟨inside, rest⟩ := List.forall_mem_cons.mp rest
    exact brings_enterLoop left inside rest
  case ticked =>
    exact fun left jobs rest => ⟨.refl _, List.forall_mem_cons.mpr ⟨trivial, (List.forall_mem_cons.mp rest).2⟩⟩
  case keyed => exact fun jobs _ _ rest => ⟨.refl _, (List.forall_mem_cons.mp rest).2⟩
  case keyless => exact fun jobs _ rest => ⟨.refl _, rest⟩
  case answered =>
    exact fun origin request targets jobs rest =>
      brings_ofAnswers origin request targets ascii (List.forall_mem_cons.mp rest).2

end Step

/-- The store is made by operations that bring ASCII values, and what is left to do is ASCII. -/
structure Run.IsAscii (run : Run) : Prop where
  store : Store.empty.LeadsTo run.world.store
  jobs : ∀ jobs, run.jobs = some jobs → Jobs.IsAscii jobs

namespace Run

theorem IsAscii.fresh {program : List Instruction} (ascii : Instruction.IsAscii program) (handset : Handset) :
    (⟨some [.block program], .fresh handset⟩ : Run).IsAscii := by
  refine ⟨.refl _, ?_⟩
  rintro _ ⟨⟩
  exact List.forall_mem_singleton.mpr ascii

theorem IsAscii.over {w : World} (store : Store.empty.LeadsTo w.store) : (⟨none, w⟩ : Run).IsAscii :=
  ⟨store, fun _ left => by cases left⟩

theorem isAscii_batch {w : World} (store : Store.empty.LeadsTo w.store) {resume : Resume} (ascii : resume.IsAscii)
    {jobs : List Job} (left : Jobs.IsAscii jobs) (budget : Nat) : (batch w resume jobs budget).2.IsAscii := by
  induction budget generalizing w jobs resume with
  | zero =>
      refine ⟨store, ?_⟩
      rintro _ ⟨⟩
      exact left
  | succ budget ih =>
      obtain ⟨leads, rest⟩ := Step.brings_next (w := w) ascii left
      have nothing : Resume.IsAscii .nothing := trivial
      unfold batch
      cases stepped : Step.next w resume jobs with
      | mk step later =>
          rw [stepped] at leads rest
          cases step with
          | tick jobs => exact ih (store.trans leads) nothing rest
          | wait outcome jobs =>
              refine ⟨store.trans leads, ?_⟩
              rintro _ ⟨⟩
              exact rest
          | fail | done => exact .over (store.trans leads)

theorem IsAscii.exec {run : Run} (ascii : run.IsAscii) {resume : Resume} (answers : resume.IsAscii)
    (maxTicks : Nat) : (run.exec resume maxTicks).2.IsAscii := by
  unfold Run.exec
  split
  · exact ascii
  · exact isAscii_batch ascii.store answers (ascii.jobs _ ‹_›) _

end Run

/-! ## Typed texts -/

theorem Computer.isAscii_encode {text : List Char} {s : DeviceString} (encoded : encode (Text.toUnits text) = .ok s) :
    s.IsAscii := by
  obtain ⟨bytes, read, rfl⟩ := exists_of_map_ok encoded
  rw [Text.decodeUnits_toUnits] at read
  obtain ⟨rfl, ascii⟩ := encodeChars_eq_ok_iff.mp read
  exact ⟨text, rfl, ascii⟩

theorem Conversion.isAscii_answer {c : Computer} {text : List Char} {kind : FieldKind} {value : Answer}
    (converted : (answer c text kind).1 = .ok value) : value.IsAscii := by
  cases kind with
  | integer | real | func =>
      obtain ⟨_, _, rfl⟩ := exists_of_map_ok converted
      trivial
  | string =>
      obtain ⟨s, made, rfl⟩ := exists_of_map_ok converted
      split at made
      · cases made
      · rename_i encoded
        split at made <;> cases made
        exact Computer.isAscii_encode encoded

/-- What the slot holds is ASCII. -/
def Slot.IsAscii (s : Slot) : Prop := ∀ value, s.value = some value → value.IsAscii

abbrev Slots.IsAscii (slots : List Slot) : Prop := ∀ slot ∈ slots, slot.IsAscii

theorem Slot.isAscii_convert (s : Slot) (c : Computer) (text : List Char) : (s.convert c text).1.IsAscii := by
  rw [convert_eq]
  intro value held
  cases converted : (Conversion.answer (giveBack c s.value) text s.kind).1 with
  | error => simp [converted, Slot.converted] at held
  | ok other =>
      obtain rfl : other = value := by simpa [converted, Slot.converted] using held
      exact Conversion.isAscii_answer converted

namespace Session

theorem isAscii_ofRequest (r : Request) : Slots.IsAscii (ofRequest r).slots := by
  intro slot member value held
  obtain ⟨kind, _, rfl⟩ := List.mem_map.mp member
  cases held

theorem isAscii_convertAll (c : Computer) (slots : List Slot) (texts : List (List Char)) :
    Slots.IsAscii (convertAll c slots texts).1 := by
  induction slots generalizing c texts with
  | nil => exact nofun
  | cons slot rest ih => exact List.forall_mem_cons.mpr ⟨slot.isAscii_convert c _, ih _ _⟩

theorem isAscii_call {s : Session} (ascii : Slots.IsAscii s.slots) (c : Computer) (call : Call) :
    Slots.IsAscii (s.call c call).1.slots := by
  cases call with
  | finish index text =>
      simp only [Session.call, finish]
      split
      · intro slot member
        rcases List.mem_or_eq_of_mem_set member with old | rfl
        · exact ascii slot old
        · exact Slot.isAscii_convert _ c text
      · exact ascii
  | submit texts =>
      simp only [Session.call, submit]
      split
      · exact isAscii_convertAll c s.slots texts
      · exact ascii
  | cancel =>
      simp only [Session.call, cancel]
      split
      · exact ascii
      · intro slot member value held
        obtain ⟨_, _, rfl⟩ := List.mem_map.mp member
        cases held

theorem isAscii_take {s : Session} {values : List Answer} (ascii : Slots.IsAscii s.slots)
    (handed : s.take.1 = some values) : ∀ value ∈ values, value.IsAscii := by
  unfold take at handed
  split at handed
  · dsimp only at handed
    generalize s.slots = slots at ascii handed
    induction slots generalizing values with
    | nil =>
        cases handed
        exact nofun
    | cons slot rest ih =>
        obtain ⟨first, others⟩ := List.forall_mem_cons.mp ascii
        simp only [List.mapM_cons, bind, Option.bind_eq_some_iff, pure, Option.some.injEq] at handed
        obtain ⟨value, held, more, rest, rfl⟩ := handed
        exact List.forall_mem_cons.mpr ⟨first value held, ih others rest⟩
  · cases handed

end Session

/-! ## Scripts -/

/-- The program is ASCII, and what is left of it, its variables and the session it waits for. -/
structure Computer.IsAscii (c : Computer) (session : Option Session) : Prop where
  program : Instruction.IsAscii c.program
  run : c.run.IsAscii
  session : ∀ s, session = some s → Slots.IsAscii s.slots

/-- The runs of a script whose variables get their values from the script, from answers and from an inspector, and
    the session that is held while the script asks for values. Answers are those of that session. -/
inductive Inspected (source : String) : Computer → Option Session → Prop where
  | loaded {c : Computer} (accepted : Computer.load source = .ok c) : Inspected source c none
  | batch {c : Computer} {session : Option Session} (resume : Resume) (maxTicks : Nat)
      (answers : ∀ values, resume = .answers values → ∃ s, session = some s ∧ s.take.1 = some values) :
      Inspected source c session →
        Inspected source (c.exec resume maxTicks).2 (c.exec resume maxTicks).1.session?
  | session {c : Computer} {s : Session} (call : Session.Call) :
      Inspected source c (some s) → Inspected source (s.call c call).2 (some (s.call c call).1)
  | committed {c : Computer} {session : Option Session} (i : Inspector) (text : List Char) :
      Inspected source c session → Inspected source (i.commit c text).2.2 session
  | handset {c : Computer} {session : Option Session} (f : Handset → Handset) :
      Inspected source c session → Inspected source (c.mapHandset f) session
  | compiled {c : Computer} {session : Option Session} (units : List UInt16) :
      Inspected source c session → Inspected source (c.compile units).2 session
  | reset {c : Computer} {session : Option Session} :
      Inspected source c session → Inspected source c.reset none
  | stopped {c : Computer} {session : Option Session} :
      Inspected source c session → Inspected source c.stop.2 none

namespace Computer

/-- The inspector changes variables, and nothing that is left of the program. -/
theorem keeps_program : Engine.Keeps fun c : Computer => (c.program, c.run.jobs) :=
  ⟨fun _ _ => rfl, fun _ _ => rfl, fun _ _ => rfl⟩

theorem leadsTo_commit (c : Computer) (i : Inspector) (text : List Char) :
    c.run.world.store.LeadsTo (i.commit c text).2.2.run.world.store := by
  rcases Inspector.commit_cases stores i c text with
    ⟨_, _, _, kept⟩ | ⟨row, value, later, offers, stored, _, _, written⟩
  · rw [show (i.commit c text).2.2.run.world.store = c.run.world.store from kept]
    exact .refl _
  · rw [show (i.commit c text).2.2.run.world.store = later from written]
    obtain ⟨answer, converted, valued⟩ := offers.converted
    have ascii := World.isAscii_answerValue (Conversion.isAscii_answer converted) valued
    cases target : row.target with
    | array =>
        rw [target] at stored
        cases stored
    | scalar name =>
        rw [target] at stored
        exact .modify ascii (Store.ok_of_mapError stored)
    | element name subs =>
        rw [target] at stored
        exact .setElement ascii (Store.ok_of_mapError stored)

end Computer

namespace Inspected

variable {source : String} {c : Computer} {session : Option Session}

theorem isAscii (inspected : Inspected source c session) : c.IsAscii session := by
  induction inspected with
  | loaded accepted =>
      obtain ⟨program, read, rfl⟩ := exists_of_map_ok accepted
      have ascii := Source.isAscii_read read
      exact ⟨ascii, .fresh ascii .blank, nofun⟩
  | @batch c session resume maxTicks answers _ ih =>
      have ascii : resume.IsAscii := by
        cases resume with
        | nothing | key => trivial
        | answers values =>
            obtain ⟨s, held, taken⟩ := answers values rfl
            exact Session.isAscii_take (ih.session s held) taken
      refine ⟨ih.program, ih.run.exec ascii maxTicks, fun s asked => ?_⟩
      unfold Outcome.session? at asked
      split at asked <;> cases asked
      exact Session.isAscii_ofRequest _
  | @session c s call _ ih =>
      obtain ⟨run, program⟩ := Computer.run_call s c call
      refine ⟨program ▸ ih.program, run ▸ ih.run, ?_⟩
      rintro _ ⟨⟩
      exact Session.isAscii_call (ih.session s rfl) c call
  | @committed c session i text _ ih =>
      have kept := Computer.keeps_program.commit i c text
      rw [Prod.mk.injEq] at kept
      obtain ⟨program, jobs⟩ := kept
      exact ⟨program ▸ ih.program, ⟨ih.run.store.trans (c.leadsTo_commit i text), jobs ▸ ih.run.jobs⟩, ih.session⟩
  | handset _ _ ih => exact ⟨ih.program, ⟨ih.run.store, ih.run.jobs⟩, ih.session⟩
  | compiled _ _ ih => exact ⟨ih.program, ⟨ih.run.store, ih.run.jobs⟩, ih.session⟩
  | @reset c _ _ ih => exact ⟨ih.program, .fresh ih.program c.handset, nofun⟩
  | stopped _ ih => exact ⟨ih.program, .over ih.run.store, nofun⟩

end Inspected

end PocketBasic
