import PocketBasic.Program.Computer
import PocketBasic.Proofs.Program.Steps
import PocketBasic.Proofs.Program.Typing

/-! # Where a run fails

A run fails at one of its actions, and the fault names the line of this action. What is left of a run, whatever it is
resumed with, consists of actions of its program.
-/

namespace PocketBasic

/-- The action, which comes from a line, fails with the fault: when it is performed, or when it gets its answers. -/
inductive Action.Fails (origin : Origin) : Action → RunFault → Prop
  | performed {action : Action} {fault : RunFault} {w later : World} {jobs : List Job} :
      Step.ofAction w origin jobs action = (.fail fault, later) → Fails origin action fault
  | answered {request : Request} {targets : List (Option String)} {fault : RunFault} {w later : World}
      {jobs : List Job} {resume : Resume} :
      Step.ofAnswers w origin request targets jobs resume = (.fail fault, later) →
      Fails origin (.input request targets) fault

/-- The job is about actions of the program. -/
def Job.Within (entries : List (Origin × Action)) : Job → Prop
  | .block rest => Instruction.actionsOf rest ⊆ entries
  | .passes _ body => Instruction.actionsOf body ⊆ entries
  | .ticks _ | .awaitKey => True
  | .awaitAnswers origin request targets => (origin, .input request targets) ∈ entries

/-- All jobs are. -/
abbrev Within (entries : List (Origin × Action)) (jobs : List Job) : Prop := ∀ job ∈ jobs, job.Within entries

/-- An action of the program has failed with the fault. -/
def Blamed (entries : List (Origin × Action)) (fault : RunFault) : Prop :=
  ∃ origin action, (origin, action) ∈ entries ∧ action.Fails origin fault

variable {entries : List (Origin × Action)} {jobs : List Job} {w : World} {origin : Origin} {action : Action}
  {request : Request} {targets : List (Option String)} {resume : Resume} {fault : RunFault}

/-! ## Steps -/

namespace Step

/-- What an action in front of some jobs can come to. -/
inductive Performs (origin : Origin) (jobs : List Job) : Action → Step → Prop
  | tick {action : Action} : Performs origin jobs action (.tick jobs)
  | work {action : Action} {left : Nat} : Performs origin jobs action (.tick (.ticks left :: jobs))
  | sleep {action : Action} {ns : UInt64} : Performs origin jobs action (.wait (.sleep ns) (.ticks 1 :: jobs))
  | inkey {action : Action} : Performs origin jobs action (.wait .key (.awaitKey :: jobs))
  | input {request : Request} {targets : List (Option String)} :
      Performs origin jobs (.input request targets)
        (.wait (.input request) (.awaitAnswers origin request targets :: jobs))
  | fail {action : Action} (message : String) : Performs origin jobs action (.fail (origin.fault message))
  | finish {action : Action} : Performs origin jobs action .done

theorem performs_ofAction (w : World) (origin : Origin) (jobs : List Job) (action : Action) :
    Performs origin jobs action (ofAction w origin jobs action).1 := by
  cases action with
  | clearScreen | fill | clear | invert => exact .tick
  | moveCursor x y =>
      simp only [ofAction]
      split
      · exact .fail _
      · split
        · exact .fail _
        · exact .tick
  | work n =>
      simp only [ofAction]
      split
      · exact .tick
      · exact .work
  | sleep => exact .sleep
  | inkey => exact .inkey
  | input => exact .input
  | assign | dim | openFile | closeFile =>
      simp only [ofAction]
      split
      all_goals first
        | exact .tick
        | exact .fail _
  | fail message => exact .fail message
  | finish => exact .finish

/-- With answers an action is done, or it fails. -/
theorem ofAnswers_tick_or_fail (w : World) (origin : Origin) (request : Request) (targets : List (Option String))
    (jobs : List Job) (resume : Resume) :
    (ofAnswers w origin request targets jobs resume).1 = .tick jobs ∨
      ∃ message, (ofAnswers w origin request targets jobs resume).1 = .fail (origin.fault message) := by
  unfold ofAnswers
  split
  · split
    · dsimp only
      split
      · exact .inl rfl
      · exact .inr ⟨_, rfl⟩
    · exact .inr ⟨_, rfl⟩
  · exact .inr ⟨_, rfl⟩

end Step

/-- A fault is on the line of the action that has failed. -/
theorem Action.Fails.span (fails : action.Fails origin fault) : fault.span = origin.span := by
  cases fails with
  | @performed _ _ w later jobs failed =>
      have performs := Step.performs_ofAction w origin jobs action
      rw [failed] at performs
      cases performs
      rfl
  | @answered request targets _ w later jobs resume failed =>
      rcases Step.ofAnswers_tick_or_fail w origin request targets jobs resume with ticked | ⟨message, refused⟩
      · rw [failed] at ticked
        cases ticked
      · rw [failed] at refused
        cases refused
        rfl

namespace Step

/-- The step leaves jobs of the program, or an action of the program has failed. -/
def Kept (entries : List (Origin × Action)) : Step → Prop
  | .tick jobs => Within entries jobs
  | .wait outcome jobs => (∀ fault, outcome ≠ .failed fault) ∧ Within entries jobs
  | .fail fault => Blamed entries fault
  | .done => True

theorem kept_enterLoop {body : List Instruction} (left : Nat) (inside : Instruction.actionsOf body ⊆ entries)
    (within : Within entries jobs) : (enterLoop left body jobs).Kept entries := by
  cases left with
  | zero => exact within
  | succ left => exact List.forall_mem_cons.mpr ⟨inside, List.forall_mem_cons.mpr ⟨inside, within⟩⟩

theorem kept_ofAction (member : (origin, action) ∈ entries) (within : Within entries jobs) :
    (ofAction w origin jobs action).1.Kept entries := by
  have more {job : Job} (inside : job.Within entries) : Within entries (job :: jobs) :=
    List.forall_mem_cons.mpr ⟨inside, within⟩
  have performs := performs_ofAction w origin jobs action
  cases result : ofAction w origin jobs action with
  | mk step later =>
      rw [result] at performs
      cases performs with
      | tick => exact within
      | work => exact more trivial
      | sleep | inkey => exact ⟨nofun, more trivial⟩
      | input => exact ⟨nofun, more member⟩
      | fail message => exact ⟨origin, action, member, .performed result⟩
      | finish => trivial

theorem kept_ofAnswers (member : (origin, .input request targets) ∈ entries) (within : Within entries jobs) :
    (ofAnswers w origin request targets jobs resume).1.Kept entries := by
  cases result : ofAnswers w origin request targets jobs resume with
  | mk step later =>
      rcases ofAnswers_tick_or_fail w origin request targets jobs resume with ticked | ⟨message, refused⟩
      · rw [result] at ticked
        cases ticked
        exact within
      · rw [result] at refused
        cases refused
        exact ⟨origin, _, member, .answered result⟩

theorem kept_next (w : World) (resume : Resume) (within : Within entries jobs) :
    (next w resume jobs).1.Kept entries := by
  refine next_cases (motive := fun jobs result => Within entries jobs → result.1.Kept entries) w resume jobs
    ?done ?through ?acted ?entered ?passed ?worked ?ticked ?keyed ?keyless ?answered within
  case done => exact fun _ => trivial
  case through | worked => exact fun jobs ih within => ih (List.forall_mem_cons.mp within).2
  case acted =>
    intro origin action rest jobs within
    obtain ⟨inside, within⟩ := List.forall_mem_cons.mp within
    have later : Instruction.actionsOf rest ⊆ entries := fun entry further => inside (List.mem_cons_of_mem _ further)
    exact kept_ofAction (inside List.mem_cons_self) (List.forall_mem_cons.mpr ⟨later, within⟩)
  case entered =>
    intro origin count body rest jobs within
    obtain ⟨inside, within⟩ := List.forall_mem_cons.mp within
    obtain ⟨first, further⟩ := List.append_subset.mp inside
    exact kept_enterLoop count first (List.forall_mem_cons.mpr ⟨further, within⟩)
  case passed =>
    intro left body jobs within
    obtain ⟨inside, within⟩ := List.forall_mem_cons.mp within
    exact kept_enterLoop left inside within
  case ticked =>
    exact fun left jobs within => List.forall_mem_cons.mpr ⟨trivial, (List.forall_mem_cons.mp within).2⟩
  case keyed => exact fun jobs _ _ within => (List.forall_mem_cons.mp within).2
  case keyless => exact fun jobs _ within => ⟨nofun, within⟩
  case answered =>
    intro origin request targets jobs within
    obtain ⟨member, within⟩ := List.forall_mem_cons.mp within
    exact kept_ofAnswers member within

end Step

/-! ## Runs -/

/-- What is left of the run are actions of the program, and a fault is of one of them. -/
def Run.Kept (entries : List (Origin × Action)) (result : Outcome × Run) : Prop :=
  (∀ jobs, result.2.jobs = some jobs → Within entries jobs) ∧ ∀ fault, result.1 = .failed fault → Blamed entries fault

theorem Run.kept_batch (w : World) (resume : Resume) (within : Within entries jobs) (budget : Nat) :
    Run.Kept entries (batch w resume jobs budget) := by
  induction budget generalizing w resume jobs with
  | zero =>
      refine ⟨?_, nofun⟩
      rintro _ ⟨⟩
      exact within
  | succ budget ih =>
      have kept := Step.kept_next w resume within
      unfold batch
      cases stepped : Step.next w resume jobs with
      | mk step later =>
          rw [stepped] at kept
          cases step with
          | tick jobs => exact ih later .nothing kept
          | wait outcome jobs =>
              refine ⟨?_, fun fault failed => absurd failed (kept.1 fault)⟩
              rintro _ ⟨⟩
              exact kept.2
          | fail fault =>
              refine ⟨nofun, ?_⟩
              rintro _ ⟨⟩
              exact kept
          | done => exact ⟨nofun, nofun⟩

namespace Computer

/-- What is left of the run are actions of the program. -/
def Faithful (c : Computer) : Prop :=
  ∀ jobs, c.run.jobs = some jobs → Within (Instruction.actionsOf c.program) jobs

variable {c : Computer}

theorem faithful_ofProgram (program : List Instruction) : (ofProgram program).Faithful := by
  rintro _ ⟨⟩
  exact List.forall_mem_singleton.mpr (List.Subset.refl _)

theorem faithful_reset (c : Computer) : c.reset.Faithful := by
  rintro _ ⟨⟩
  exact List.forall_mem_singleton.mpr (List.Subset.refl _)

theorem Faithful.exec (faithful : c.Faithful) (resume : Resume) (maxTicks : Nat) :
    (c.exec resume maxTicks).2.Faithful ∧
      ∀ fault, (c.exec resume maxTicks).1 = .failed fault → Blamed (Instruction.actionsOf c.program) fault := by
  have kept : Run.Kept (Instruction.actionsOf c.program) (c.run.exec resume maxTicks) := by
    unfold Run.exec
    split
    · exact ⟨fun jobs left => faithful jobs left, nofun⟩
    · rename_i jobs left
      exact Run.kept_batch _ _ (faithful jobs left) _
  exact kept

end Computer

end PocketBasic
