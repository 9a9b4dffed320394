import PocketBasic.Proofs.Program.Traced

/-! # Control characters in a run

A program that is traced asks for nothing else and fails of nothing else, and leaves nothing else in its
variables, whatever traced answers it gets. So a pocket computer is a rig that gives out what it was given.
-/

namespace PocketBasic

variable {given : List Char}

def Job.Traced (given : List Char) : Job → Prop
  | .block rest => Instruction.Traced given rest
  | .passes _ body => Instruction.Traced given body
  | .ticks _ | .awaitKey => True
  | .awaitAnswers _ _ targets => ∀ name, some name ∈ targets → Text.Traced given name.toList

abbrev Jobs.Traced (given : List Char) (jobs : List Job) : Prop := ∀ job ∈ jobs, job.Traced given

/-- The variables are traced, and the name of the open file. -/
structure World.Traced (given : List Char) (w : World) : Prop where
  store : w.store.Traced given
  openFile : ∀ name, w.openFile = some name → Text.Traced given name.toList

namespace World

variable {w : World}

theorem traced_fresh (handset : Handset) : (fresh handset).Traced given :=
  ⟨Store.traced_empty, nofun⟩

theorem Traced.withStore (traced : w.Traced given) {store : Store} (stored : store.Traced given) :
    World.Traced given { w with store } :=
  ⟨stored, traced.openFile⟩

theorem meets_operandValue (w : World) {x : Operand} (traced : x.Traced given) :
    Meets (fun message : String => Text.Traced given message.toList) (fun _ => True) (w.operandValue x) := by
  unfold operandValue
  split
  · trivial
  · split
    · trivial
    · trivial
    · trivial
    · exact BindingError.traced_typeMismatch traced

theorem traced_answerValue {answer : Answer} {value : Value} (traced : answer.Traced given)
    (valued : answerValue? answer = some value) : value.Traced given := by
  cases answer with
  | integer | real =>
      cases valued
      trivial
  | string =>
      cases valued
      exact traced
  | func => cases valued

theorem traced_storeAnswers {store : Store} {values : List Answer} {targets : List (Option String)}
    (stored : store.Traced given) (traced : ∀ value ∈ values, value.Traced given)
    (named : ∀ name, some name ∈ targets → Text.Traced given name.toList) :
    (∀ e, (storeAnswers store values targets).1 = some e → e.Traced given) ∧
      (storeAnswers store values targets).2.Traced given := by
  induction values generalizing store targets with
  | nil => exact ⟨nofun, stored⟩
  | cons value rest ih =>
      rw [List.forall_mem_cons] at traced
      cases targets with
      | nil => exact ⟨nofun, stored⟩
      | cons target targets =>
          have others : ∀ name, some name ∈ targets → Text.Traced given name.toList :=
            fun name member => named name (List.mem_cons_of_mem _ member)
          unfold storeAnswers
          split
          · rename_i valued
            have assigned := stored.assign (named _ List.mem_cons_self) (traced_answerValue traced.1 valued)
            split
            · rename_i result
              exact ih (assigned.ok result) traced.2 others
            · rename_i result
              refine ⟨?_, stored⟩
              rintro _ ⟨⟩
              exact assigned.error result
          · exact ih stored traced.2 others

end World

namespace Step

/-- How a step ends, and the world that it leaves. -/
def Traced (given : List Char) (result : Step × World) : Prop :=
  result.2.Traced given ∧
    match result.1 with
    | .tick jobs => Jobs.Traced given jobs
    | .wait outcome jobs => outcome.Traced given ∧ Jobs.Traced given jobs
    | .fail fault => fault.Traced given
    | .done => True

variable {w : World} {jobs : List Job}

theorem traced_enterLoop (traced : w.Traced given) {body : List Instruction} (left : Nat)
    (inside : Instruction.Traced given body) (rest : Jobs.Traced given jobs) :
    Traced given (enterLoop left body jobs, w) := by
  refine ⟨traced, ?_⟩
  cases left with
  | zero => exact rest
  | succ left => exact List.forall_mem_cons.mpr ⟨inside, List.forall_mem_cons.mpr ⟨inside, rest⟩⟩

theorem traced_ofAction (traced : w.Traced given) (origin : Origin) {action : Action}
    (said : action.Traced given) (rest : Jobs.Traced given jobs) :
    Traced given (ofAction w origin jobs action) := by
  cases action with
  | clearScreen | fill | clear | invert => exact ⟨⟨traced.store, traced.openFile⟩, rest⟩
  | moveCursor x y =>
      simp only [ofAction]
      split
      · rename_i refused
        exact ⟨traced, (w.meets_operandValue said.1).error refused⟩
      · split
        · rename_i refused
          exact ⟨traced, (w.meets_operandValue said.2).error refused⟩
        · exact ⟨⟨traced.store, traced.openFile⟩, rest⟩
  | work n =>
      refine ⟨traced, ?_⟩
      dsimp only [ofAction]
      split
      · exact rest
      · exact List.forall_mem_cons.mpr ⟨trivial, rest⟩
  | sleep | inkey => exact ⟨traced, trivial, List.forall_mem_cons.mpr ⟨trivial, rest⟩⟩
  | input request targets => exact ⟨traced, said.1, List.forall_mem_cons.mpr ⟨said.2, rest⟩⟩
  | assign name subs value =>
      have stored : Meets (BindingError.Traced given) (Store.Traced given)
          (if subs.isEmpty then w.store.assign name value else w.store.setElement name subs value) := by
        split
        · exact traced.store.assign said.1 said.2
        · exact traced.store.setElement said.1 said.2
      simp only [ofAction]
      split
      · rename_i result
        exact ⟨traced.withStore (stored.ok result), rest⟩
      · rename_i result
        exact ⟨traced, stored.error result⟩
  | dim name dims =>
      simp only [ofAction]
      split
      · rename_i bound
        exact ⟨traced.withStore (traced.store.dim said bound), rest⟩
      · exact ⟨traced, (Text.Traced.behind said (by decide)).before (by decide)⟩
      · exact ⟨⟨traced.store, traced.openFile⟩, rest⟩
  | openFile name =>
      simp only [ofAction]
      split
      · rename_i other opened
        exact ⟨traced, ((traced.openFile other opened).behind (by decide)).before (by decide)⟩
      · refine ⟨⟨traced.store, ?_⟩, rest⟩
        rintro _ ⟨⟩
        exact said
  | closeFile =>
      simp only [ofAction]
      split
      · exact ⟨⟨traced.store, nofun⟩, rest⟩
      · refine ⟨traced, ?_⟩
        change Text.Traced given "no file is open".toList
        exact Text.traced_of_plain (by decide)
  | fail message => exact ⟨traced, said⟩
  | finish => exact ⟨traced, trivial⟩

theorem traced_ofAnswers (traced : w.Traced given) (origin : Origin) (request : Request)
    {targets : List (Option String)} {resume : Resume} (answered : resume.Traced given)
    (named : ∀ name, some name ∈ targets → Text.Traced given name.toList) (rest : Jobs.Traced given jobs) :
    Traced given (ofAnswers w origin request targets jobs resume) := by
  have refused : Traced given
      (.fail (origin.fault ("INPUT expects " ++ toString request.fields.length ++ " values")), w) :=
    ⟨traced, ((Text.traced_toString_nat _).behind (by decide)).before (by decide)⟩
  unfold ofAnswers
  dsimp only
  split
  · rename_i values
    split
    · obtain ⟨errors, stored⟩ := World.traced_storeAnswers traced.store answered named
      split
      · exact ⟨⟨stored, traced.openFile⟩, rest⟩
      · rename_i e failed
        exact ⟨⟨stored, traced.openFile⟩, errors e failed⟩
    · exact refused
  · exact refused

theorem traced_next (traced : w.Traced given) {resume : Resume} (answered : resume.Traced given)
    (rest : Jobs.Traced given jobs) : Traced given (next w resume jobs) := by
  refine next_cases (motive := fun jobs result => Jobs.Traced given jobs → Traced given result) w resume
    jobs ?done ?through ?acted ?entered ?passed ?worked ?ticked ?keyed ?keyless ?answered rest
  case done => exact fun _ => ⟨traced, trivial⟩
  case through | worked => exact fun jobs ih rest => ih (List.forall_mem_cons.mp rest).2
  case acted =>
    intro origin action body jobs rest
    obtain ⟨inside, rest⟩ := List.forall_mem_cons.mp rest
    obtain ⟨said, later⟩ := List.forall_mem_cons.mp inside
    exact traced_ofAction traced origin said (List.forall_mem_cons.mpr ⟨later, rest⟩)
  case entered =>
    intro origin count body more jobs rest
    obtain ⟨inside, rest⟩ := List.forall_mem_cons.mp rest
    obtain ⟨within, later⟩ := List.forall_mem_append.mp inside
    exact traced_enterLoop traced count within (List.forall_mem_cons.mpr ⟨later, rest⟩)
  case passed =>
    intro left body jobs rest
    obtain ⟨inside, rest⟩ := List.forall_mem_cons.mp rest
    exact traced_enterLoop traced left inside rest
  case ticked =>
    exact fun left jobs rest => ⟨traced, List.forall_mem_cons.mpr ⟨trivial, (List.forall_mem_cons.mp rest).2⟩⟩
  case keyed =>
    exact fun jobs _ _ rest => ⟨⟨traced.store, traced.openFile⟩, (List.forall_mem_cons.mp rest).2⟩
  case keyless => exact fun jobs _ rest => ⟨traced, trivial, rest⟩
  case answered =>
    intro origin request targets jobs rest
    obtain ⟨named, rest⟩ := List.forall_mem_cons.mp rest
    exact traced_ofAnswers traced origin request answered named rest

end Step

/-- What is left to do is traced, and the world. -/
structure Run.Traced (given : List Char) (run : Run) : Prop where
  jobs : ∀ jobs, run.jobs = some jobs → Jobs.Traced given jobs
  world : run.world.Traced given

namespace Run

theorem traced_batch {w : World} (traced : w.Traced given) {resume : Resume} (answered : resume.Traced given)
    {jobs : List Job} (left : Jobs.Traced given jobs) (budget : Nat) :
    (batch w resume jobs budget).1.Traced given ∧ (batch w resume jobs budget).2.Traced given := by
  induction budget generalizing w jobs resume with
  | zero =>
      refine ⟨trivial, ?_, traced⟩
      rintro _ ⟨⟩
      exact left
  | succ budget ih =>
      have stepped := Step.traced_next traced answered left
      have nothing : Resume.Traced given .nothing := trivial
      unfold batch
      cases next : Step.next w resume jobs with
      | mk step later =>
          rw [next] at stepped
          obtain ⟨world, stepped⟩ := stepped
          cases step with
          | tick jobs => exact ih world nothing stepped
          | wait outcome jobs =>
              refine ⟨stepped.1, ?_, world⟩
              rintro _ ⟨⟩
              exact stepped.2
          | fail fault => exact ⟨stepped, nofun, world⟩
          | done => exact ⟨trivial, nofun, world⟩

theorem Traced.exec {run : Run} (traced : run.Traced given) {resume : Resume} (answered : resume.Traced given)
    (maxTicks : Nat) :
    (run.exec resume maxTicks).1.Traced given ∧ (run.exec resume maxTicks).2.Traced given := by
  unfold Run.exec
  split
  · exact ⟨trivial, traced⟩
  · rename_i jobs left
    exact traced_batch traced.world answered (traced.jobs jobs left) _

end Run

namespace FunctionBody

theorem traced_check {text : List Char} (traced : Text.Traced given text) (index : Nat) (opened : List Nat) :
    ∀ d ∈ check index opened text, Text.Traced given d.message.toList := by
  induction text generalizing index opened with
  | nil =>
      intro d member
      obtain ⟨_, _, rfl⟩ := List.mem_map.mp member
      change Text.Traced given "unclosed '('".toList
      exact Text.traced_of_plain (by decide)
  | cons c rest ih =>
      obtain ⟨first, rest⟩ := Text.traced_cons.mp traced
      unfold check
      split
      · exact ih rest _ _
      · split
        · split
          · refine List.forall_mem_cons.mpr ⟨?_, ih rest _ _⟩
            change Text.Traced given "unmatched ')'".toList
            exact Text.traced_of_plain (by decide)
          · exact ih rest _ _
        · split
          · exact ih rest _ _
          · refine List.forall_mem_cons.mpr ⟨?_, ih rest _ _⟩
            have character : Text.Traced given (String.singleton c).toList := by
              simpa using first
            exact (character.behind (by decide)).before (by decide)

theorem traced_diagnostics {text : List Char} (traced : Text.Traced given text) :
    ∀ d ∈ diagnostics text, Text.Traced given d.message.toList := by
  unfold diagnostics
  split
  · refine List.forall_mem_singleton.mpr ?_
    change Text.Traced given "expression expected".toList
    exact Text.traced_of_plain (by decide)
  · exact traced_check traced 0 []

end FunctionBody

/-- The program is traced, and the run of it. -/
structure Computer.Traced (given : List Char) (c : Computer) : Prop where
  program : Instruction.Traced given c.program
  run : c.run.Traced given

namespace Computer

variable {c : Computer}

theorem traced_ofProgram {program : List Instruction} (traced : Instruction.Traced given program) :
    (ofProgram program).Traced given := by
  refine ⟨traced, fun jobs left => ?_, World.traced_fresh _⟩
  cases left
  exact List.forall_mem_singleton.mpr traced

/-- A computer says what the lines of its program say. -/
theorem meets_load {source : String} (all : ∀ line ∈ Text.lines source.toList, Text.Traced given line) :
    Meets (ScriptError.Traced given) (Computer.Traced given) (load source) :=
  (Source.meets_read all).map fun _ traced => traced_ofProgram traced

/-- The device has the ASCII characters and no others. -/
theorem encodeChars_eq_ok_iff {text : List Char} {bytes : List UInt8} :
    encodeChars (text.map some) = .ok bytes ↔ bytes = Text.asciiBytes text ∧ ∀ c ∈ text, c.toNat < 128 := by
  induction text generalizing bytes with
  | nil => simp [encodeChars, Text.asciiBytes, eq_comm]
  | cons c rest ih =>
      rw [List.map_cons, encodeChars, List.forall_mem_cons]
      constructor
      · intro encoded
        split at encoded
        · rename_i small
          obtain ⟨others, more, rfl⟩ := exists_of_map_ok encoded
          obtain ⟨rfl, all⟩ := ih.mp more
          exact ⟨rfl, small, all⟩
        · cases encoded
      · rintro ⟨rfl, small, all⟩
        rw [if_pos small, ih.mpr ⟨rfl, all⟩]
        rfl

theorem traced_encodeChars {text : List Char} {bytes : List UInt8} (traced : Text.Traced given text)
    (encoded : encodeChars (text.map some) = .ok bytes) : DeviceString.Traced given ⟨bytes⟩ := by
  obtain ⟨rfl, ascii⟩ := encodeChars_eq_ok_iff.mp encoded
  exact DeviceString.traced_asciiBytes traced ascii

/-- Nothing of the handset is text. -/
theorem Traced.mapHandset (traced : c.Traced given) (f : Handset → Handset) : (c.mapHandset f).Traced given :=
  ⟨traced.program, traced.run.jobs, traced.run.world.store, traced.run.world.openFile⟩

theorem traces : Rig.Traces given (Computer.Traced given) where
  exec c _ maxTicks traced answered := by
    obtain ⟨outcome, run⟩ := traced.run.exec answered maxTicks
    exact ⟨outcome, traced.program, run⟩
  stop c traced := by
    refine ⟨fun text complaint => ?_, traced.program, nofun, traced.run.world.store, nofun⟩
    obtain ⟨name, opened, rfl⟩ := Option.map_eq_some_iff.mp complaint
    exact ((traced.run.world.openFile name opened).behind (by decide)).before (by decide)
  reset c traced := by
    refine ⟨traced.program, fun jobs left => ?_, World.traced_fresh _⟩
    cases left
    exact List.forall_mem_singleton.mpr traced.program
  compile c text traced typed := by
    refine ⟨?_, traced.program, traced.run⟩
    change ∀ d ∈ FunctionBody.diagnostics (Text.ofUnitsLossy (Text.toUnits text)), _
    rw [Text.ofUnitsLossy_toUnits]
    exact FunctionBody.traced_diagnostics typed
  encode _ text s typed encoded := by
    obtain ⟨bytes, read, rfl⟩ := exists_of_map_ok encoded
    rw [Text.decodeUnits_toUnits] at read
    exact traced_encodeChars typed read
  release _ _ traced := traced
  store _ traced := traced.run.world.store
  withStore _ _ traced stored := ⟨traced.program, traced.run.jobs, stored, traced.run.world.openFile⟩
  restart _ traced := traced.mapHandset _
  takeKey c traced := traced.mapHandset fun _ => c.handset.takeKey.2
  keyDown _ _ traced := traced.mapHandset _
  keyUp _ _ traced := traced.mapHandset _
  blink _ traced := traced.mapHandset _
  hideCaret _ traced := traced.mapHandset _
  takeDirty c traced := traced.mapHandset fun _ => c.handset.takeDirty.2

end Computer

end PocketBasic
