import PocketBasic.Program.Computer
import PocketBasic.Proofs.Engine.Keeps
import PocketBasic.Proofs.Program.Mishaps

/-! # Type safety

A script is run batch by batch. In between its variables are edited, its requests are answered in sessions
that convert what is typed, and it is stopped and started again. In none of this does a variable get a
value of another type, and so no answer is ever refused.
-/

namespace PocketBasic

namespace Run

variable {entries : List (Origin × Action)}

/-- The outcome of a batch and what is left of the run. -/
structure Ended (entries : List (Origin × Action)) (result : Outcome × Run) : Prop where
  typed : result.2.world.store.Typed
  left : ∀ jobs, result.2.jobs = some jobs → Left entries jobs result.1
  waits : ∀ request, result.1 = .input request → ∃ jobs, result.2.jobs = some jobs
  explained : ∀ fault, result.1 = .failed fault → Explained entries result.2.world fault

theorem Ended.of_quiet {outcome : Outcome} {run : Run} (quiet : outcome = .more ∨ outcome = .done)
    (typed : run.world.store.Typed)
    (settled : ∀ jobs, run.jobs = some jobs → Settled entries jobs) : Ended entries (outcome, run) := by
  rcases quiet with rfl | rfl <;>
    exact ⟨typed, settled, fun _ other => (by cases other), fun _ other => by cases other⟩

/-- What follows on a step that is safe ends a batch as it should. -/
theorem ended_of_step {w : World} {resume : Resume} {jobs : List Job} {budget : Nat}
    (safe : Step.Safe entries (Step.next w resume jobs))
    (rest : ∀ later jobs, later.store.Typed → Settled entries jobs →
      Ended entries (batch later .nothing jobs budget)) :
    Ended entries (batch w resume jobs (budget + 1)) := by
  unfold batch
  cases stepped : Step.next w resume jobs with
  | mk step later =>
      rw [stepped] at safe
      obtain ⟨typed, safe⟩ := safe
      cases step with
      | tick jobs => exact rest later jobs typed safe
      | wait outcome jobs =>
          refine ⟨typed, fun _ same => ?_, fun _ _ => ⟨jobs, rfl⟩, fun fault failed => ?_⟩
          · cases same
            exact safe.1
          · exact absurd failed (safe.2 fault)
      | fail fault =>
          refine ⟨typed, fun _ same => (by cases same), fun _ other => (by cases other), ?_⟩
          rintro _ ⟨⟩
          exact safe
      | done => exact .of_quiet (.inr rfl) typed fun _ same => by cases same

theorem ended_batch (sound : Sound entries) {w : World} (typed : w.store.Typed) {jobs : List Job}
    (settled : Settled entries jobs) (resume : Resume) (budget : Nat) :
    Ended entries (batch w resume jobs budget) := by
  induction budget generalizing w jobs resume with
  | zero =>
      refine .of_quiet (.inl rfl) typed fun _ same => ?_
      cases same
      exact settled
  | succ budget ih =>
      exact ended_of_step (Step.safe_next sound typed resume settled) fun _ _ typed settled =>
        ih typed settled .nothing

/-- A batch that is resumed with answers that fit stores them first. -/
theorem ended_answered (sound : Sound entries) {w : World} (typed : w.store.Typed) {jobs : List Job}
    {request : Request} {values : List Answer} (asking : Asking entries request jobs)
    (fits : List.Forall₂ (fun kind value => value.Fits kind) request.fields values) {budget : Nat}
    (positive : 0 < budget) : Ended entries (batch w (.answers values) jobs budget) := by
  obtain ⟨origin, targets, rest, rfl, suits, settled⟩ := asking
  obtain ⟨left, rfl⟩ := Nat.exists_eq_succ_of_ne_zero (Nat.pos_iff_ne_zero.mp positive)
  exact ended_of_step (Step.safe_ofAnswers typed suits fits settled) fun _ _ typed settled =>
    ended_batch sound typed settled .nothing left

end Run

/-- The session that a batch leaves to be held. -/
def Outcome.session? : Outcome → Option Session
  | .input request => some (.ofRequest request)
  | _ => none

/-- A program that asks for values is resumed with those of its session, once that is accepted. -/
def Resume.IsDue (resume : Resume) : Option Session → Prop
  | none => True
  | some session => ∃ values, session.take.1 = some values ∧ resume = .answers values

/-- The runs of a script, and the session that is held while the script asks for values. -/
inductive Scripted (source : String) : Computer → Option Session → Prop where
  | loaded {c : Computer} (accepted : Computer.load source = .ok c) : Scripted source c none
  | batch {c : Computer} {session : Option Session} (resume : Resume) (maxTicks : Nat)
      (due : resume.IsDue session) :
      Scripted source c session →
        Scripted source (c.exec resume maxTicks).2 (c.exec resume maxTicks).1.session?
  | session {c : Computer} {s : Session} (call : Session.Call) :
      Scripted source c (some s) → Scripted source (s.call c call).2 (some (s.call c call).1)
  | modified {c : Computer} {session : Option Session} {name : String} {value : Value} {store : Store}
      (edited : c.run.world.store.modify name value = .ok store) :
      Scripted source c session → Scripted source (Engine.withStore c store) session
  | element {c : Computer} {session : Option Session} {name : String} {subs : Subscripts}
      {value : Value} {store : Store}
      (edited : c.run.world.store.setElement name subs value = .ok store) :
      Scripted source c session → Scripted source (Engine.withStore c store) session
  | handset {c : Computer} {session : Option Session} (f : Handset → Handset) :
      Scripted source c session → Scripted source (c.mapHandset f) session
  | compiled {c : Computer} {session : Option Session} (units : List UInt16) :
      Scripted source c session → Scripted source (c.compile units).2 session
  | reset {c : Computer} {session : Option Session} :
      Scripted source c session → Scripted source c.reset none
  | stopped {c : Computer} {session : Option Session} :
      Scripted source c session → Scripted source c.stop.2 none

/-- The program on the computer is sound, and what is left of it goes with the session. -/
structure Computer.Sound (source : String) (c : Computer) (session : Option Session) : Prop where
  program : Source.read source.toList = .ok c.program
  typed : c.run.world.store.Typed
  settled : session = none → ∀ jobs, c.run.jobs = some jobs →
    Settled (Instruction.actionsOf c.program) jobs
  asking : ∀ s, session = some s → ∃ request jobs, c.run.jobs = some jobs ∧
    Asking (Instruction.actionsOf c.program) request jobs ∧ Session.Fitting request.fields s.slots

namespace Computer

variable {source : String} {c other : Computer} {session : Option Session}

theorem kept_in_sessions : Engine.KeptInSessions fun c : Computer => (c.run, c.program) :=
  ⟨fun _ _ => rfl, fun _ _ => rfl⟩

/-- Calls to a session compile, and leave the run alone. -/
theorem run_call (s : Session) (c : Computer) (call : Session.Call) :
    (s.call c call).2.run = c.run ∧ (s.call c call).2.program = c.program := by
  rw [← Prod.mk.injEq]
  cases call with
  | finish index text => exact kept_in_sessions.finish s c index text
  | submit texts => exact kept_in_sessions.submit s c texts
  | cancel => exact kept_in_sessions.cancel s c

namespace Sound

theorem of_same (sound : c.Sound source session) (program : other.program = c.program)
    (jobs : other.run.jobs = c.run.jobs) (typed : other.run.world.store.Typed) :
    other.Sound source session := by
  constructor
  · rw [program]
    exact sound.program
  · exact typed
  · rw [program, jobs]
    exact sound.settled
  · rw [program, jobs]
    exact sound.asking

theorem ended_exec (sound : c.Sound source session) {resume : Resume} (due : resume.IsDue session)
    (maxTicks : Nat) :
    Run.Ended (Instruction.actionsOf c.program) (c.run.exec resume maxTicks) := by
  have program := Source.sound_read sound.program
  unfold Run.exec
  cases left : c.run.jobs with
  | none => exact .of_quiet (.inr rfl) sound.typed fun _ some => by cases left.symm.trans some
  | some jobs =>
      -- Only a program that holds a session has a job that looks at the answers.
      cases session with
      | none => exact Run.ended_batch program sound.typed (sound.settled rfl jobs left) resume _
      | some s =>
          obtain ⟨values, taken, rfl⟩ := due
          obtain ⟨request, jobs, same, asking, fitting⟩ := sound.asking s rfl
          cases left.symm.trans same
          exact Run.ended_answered program sound.typed asking (fitting.take taken) (by omega)

theorem exec (sound : c.Sound source session) {resume : Resume} (due : resume.IsDue session)
    (maxTicks : Nat) :
    (c.exec resume maxTicks).2.Sound source (c.exec resume maxTicks).1.session? := by
  have ended := sound.ended_exec due maxTicks
  have outcome : (c.exec resume maxTicks).1 = (c.run.exec resume maxTicks).1 := rfl
  refine ⟨sound.program, ended.typed, fun none jobs left => ?_, fun s asked => ?_⟩
  · have settled := ended.left jobs left
    rw [outcome] at none
    cases ends : (c.run.exec resume maxTicks).1 with
    | input request => simp [ends, Outcome.session?] at none
    | more | sleep | key | failed | done =>
        rw [ends] at settled
        exact settled
  · rw [outcome] at asked
    cases ends : (c.run.exec resume maxTicks).1 with
    | input request =>
        obtain ⟨jobs, left⟩ := ended.waits request ends
        have asking := ended.left jobs left
        simp only [ends, Outcome.session?, Option.some.injEq] at asked asking
        subst asked
        exact ⟨request, jobs, left, asking, Session.fitting_ofRequest request⟩
    | more | sleep | key | failed | done => simp [ends, Outcome.session?] at asked

theorem called {s : Session} (sound : c.Sound source (some s)) (call : Session.Call) :
    (s.call c call).2.Sound source (some (s.call c call).1) := by
  obtain ⟨run, program⟩ := run_call s c call
  obtain ⟨request, jobs, left, asking, fitting⟩ := sound.asking s rfl
  refine ⟨?_, ?_, fun other => (by cases other), fun _ same => ?_⟩
  · rw [program]
    exact sound.program
  · rw [run]
    exact sound.typed
  · cases same
    rw [run, program]
    exact ⟨request, jobs, left, asking, fitting.call c call⟩

/-- Starting again and stopping forget the session, and what is left of the program. -/
theorem afresh (sound : c.Sound source session) (program : other.program = c.program)
    (typed : other.run.world.store.Typed)
    (jobs : ∀ jobs, other.run.jobs = some jobs → jobs = [.block c.program]) :
    other.Sound source none := by
  refine ⟨program ▸ sound.program, typed, fun _ jobs' left => ?_, fun _ other => by cases other⟩
  rw [jobs jobs' left, program]
  exact List.forall_mem_singleton.mpr (List.Subset.refl _)

end Sound

end Computer

theorem Scripted.sound {source : String} {c : Computer} {session : Option Session}
    (scripted : Scripted source c session) : c.Sound source session := by
  induction scripted with
  | loaded accepted =>
      obtain ⟨program, read, rfl⟩ := exists_of_map_ok accepted
      refine ⟨read, Store.typed_empty, fun _ jobs left => ?_, fun _ other => by cases other⟩
      cases left
      exact List.forall_mem_singleton.mpr (List.Subset.refl _)
  | batch resume maxTicks due _ ih => exact ih.exec due maxTicks
  | session call _ ih => exact ih.called call
  | modified edited _ ih => exact ih.of_same rfl rfl (ih.typed.modify edited)
  | element edited _ ih => exact ih.of_same rfl rfl (ih.typed.setElement edited)
  | handset f _ ih => exact ih.of_same rfl rfl ih.typed
  | compiled units _ ih => exact ih.of_same rfl rfl ih.typed
  | reset _ ih => exact ih.afresh rfl Store.typed_empty fun jobs left => (Option.some.inj left).symm
  | stopped _ ih => exact ih.afresh rfl ih.typed fun jobs left => by cases left

/-- Every value of a script is of the type that its name gives. When the script fails, the one action on
    the line of the fault has met with a mishap: it is no request for values, and no assignment of a
    value of the wrong type. -/
theorem Scripted.type_safe {source : String} {c : Computer} {session : Option Session}
    (scripted : Scripted source c session) :
    Source.read source.toList = .ok c.program ∧
      (∀ name value, c.run.world.store.get? name = some value → value.type = .ofName name) ∧
      (∀ name subs value, c.run.world.store.element? name subs = some value →
        value.type = .ofName name) ∧
      ∀ (resume : Resume) maxTicks fault, resume.IsDue session →
        (c.exec resume maxTicks).1 = .failed fault →
        ∃ origin action, (origin, action) ∈ Instruction.actionsOf c.program ∧
          fault.span = origin.span ∧
          Mishap (c.exec resume maxTicks).2.run.world action fault.message ∧
          ∀ other ∈ Instruction.actionsOf c.program, other.1.line = fault.span.line →
            other = (origin, action) := by
  have sound := scripted.sound
  refine ⟨sound.program, fun _ _ => sound.typed.get?, fun _ _ _ => sound.typed.element?, ?_⟩
  intro resume maxTicks fault due failed
  obtain ⟨origin, action, member, span, mishap⟩ := (sound.ended_exec due maxTicks).explained fault failed
  refine ⟨origin, action, member, span, mishap, fun other inside same => ?_⟩
  refine (Source.sound_read sound.program).unique inside member ?_
  rw [same, span]
  rfl

/-- A script that asks for a number and a text, gets both, and then writes past the end of its array. -/
theorem Scripted.type_safe_subscript :
    let source := "input \"n\" A% B$\ndim C%(3)\nlet C%(9) 1"
    let c := (Computer.load source).toOption.getD (.ofProgram [])
    let asked := c.exec .nothing 10
    let session := Session.ofRequest ⟨some "n", [.integer, .string]⟩
    let typed := session.call asked.2 (.submit [['1', '2'], ['h', 'i']])
    let values := [Answer.integer 12, .string ⟨[104, 105]⟩]
    let failed := typed.2.exec (.answers values) 10
    asked.1.session? = some session ∧ typed.1.take.1 = some values ∧
      failed.2.run.world.store.get? "A%" = some (.integer 12) ∧
      failed.1 = .failed ⟨⟨2, 0, 11⟩, "subscript out of range for C%"⟩ ∧
      ∃ origin action, (origin, action) ∈ Instruction.actionsOf typed.2.program ∧ origin.line = 2 ∧
        Mishap failed.2.run.world action "subscript out of range for C%" := by
  intro source c asked session typed values failed
  have accepted : Computer.load source = .ok c := by
    have read : (Computer.load source).toBool = true := by decide +kernel
    dsimp only [c]
    cases loaded : Computer.load source with
    | error => simp [loaded, Except.toBool] at read
    | ok => rfl
  have question : asked.1.session? = some session := by decide +kernel
  have taken : typed.1.take.1 = some values := by decide +kernel
  have ended : failed.1 = .failed ⟨⟨2, 0, 11⟩, "subscript out of range for C%"⟩ := by decide +kernel
  have free : Resume.nothing.IsDue none := trivial
  have waits : Scripted source asked.2 (some session) := by
    rw [← question]
    exact (Scripted.loaded accepted).batch .nothing 10 free
  have answered : Scripted source typed.2 (some typed.1) := waits.session _
  obtain ⟨_, _, _, explained⟩ := answered.type_safe
  obtain ⟨origin, action, member, span, mishap, _⟩ :=
    explained (.answers values) 10 _ ⟨values, taken, rfl⟩ ended
  exact ⟨question, taken, by decide +kernel, ended, origin, action, member,
    (congrArg Span.line span).symm, mishap⟩

end PocketBasic
