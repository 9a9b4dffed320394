import PocketBasic.Proofs.Program.Steps

/-! # The ticks that are left

Every program comes to its end after a number of ticks that its text gives, if nothing ends it before.
Each tick takes one off, a wait takes none, and so no run of batches that never wait goes on for ever.
-/

namespace PocketBasic

/-- Ticks that an action takes. -/
def Action.ticks : Action → Nat
  | .work n => max n 1
  | _ => 1

mutual

/-- Ticks from an instruction to the next. A loop takes one before each pass and one to leave. -/
def Instruction.ticks : Instruction → Nat
  | .act _ action => action.ticks
  | .loop _ count body => count * (1 + Instruction.ticksOf body) + 1

/-- Ticks of instructions that are run one after the other. -/
def Instruction.ticksOf : List Instruction → Nat
  | [] => 0
  | i :: rest => i.ticks + Instruction.ticksOf rest

end

/-- Ticks that a piece of work takes. -/
def Job.cost : Job → Nat
  | .block rest => Instruction.ticksOf rest
  | .passes left body => left * (1 + Instruction.ticksOf body) + 1
  | .ticks left => left
  | .awaitKey => 1
  | .awaitAnswers _ _ _ => 1

/-- Ticks that all the work takes. -/
def Job.costOf : List Job → Nat
  | [] => 0
  | job :: jobs => job.cost + Job.costOf jobs

/-- Ticks that are left of a run. -/
def Run.ticksLeft (run : Run) : Nat :=
  match run.jobs with
  | some jobs => Job.costOf jobs
  | none => 0

/-- The program waits, and goes on when it is given an answer. -/
def Outcome.isWait : Outcome → Bool
  | .sleep _ | .key | .input _ => true
  | _ => false

namespace Step

/-- A step that leaves work leaves as much as there was, but for the tick that has passed. -/
def Spends (total : Nat) : Step → Prop
  | .tick jobs => Job.costOf jobs + 1 = total
  | .wait outcome jobs => outcome.isWait = true ∧ Job.costOf jobs = total
  | .fail _ => True
  | .done => True

variable {origin : Origin} {jobs : List Job}

theorem spends_enterLoop (left : Nat) (body : List Instruction) (jobs : List Job) :
    (enterLoop left body jobs).Spends (left * (1 + Instruction.ticksOf body) + 1 + Job.costOf jobs) := by
  cases left with
  | zero =>
      simp only [enterLoop, Spends]
      omega
  | succ left =>
      have pass : (left + 1) * (1 + Instruction.ticksOf body) =
          left * (1 + Instruction.ticksOf body) + (1 + Instruction.ticksOf body) := Nat.succ_mul _ _
      simp only [enterLoop, Spends, Job.costOf, Job.cost, pass]
      omega

theorem spends_ofAction (w : World) (action : Action) :
    (ofAction w origin jobs action).1.Spends (action.ticks + Job.costOf jobs) := by
  have tick : (Step.tick jobs).Spends (1 + Job.costOf jobs) := Nat.add_comm _ _
  cases action with
  | clearScreen | fill | clear | invert => exact tick
  | moveCursor x y =>
      simp only [ofAction]
      split
      · trivial
      · split
        · trivial
        · exact tick
  | work n =>
      simp only [ofAction, Spends, Action.ticks]
      split
      · omega
      · simp only [Job.costOf, Job.cost]
        omega
  | sleep | inkey | input => exact ⟨rfl, rfl⟩
  | assign | dim =>
      simp only [ofAction]
      split
      all_goals first
        | exact tick
        | trivial
  | openFile | closeFile =>
      simp only [ofAction]
      split
      all_goals first
        | exact tick
        | trivial
  | fail | finish => trivial

theorem spends_ofAnswers (w : World) (request : Request) (targets : List (Option String))
    (resume : Resume) :
    (ofAnswers w origin request targets jobs resume).1.Spends (1 + Job.costOf jobs) := by
  unfold ofAnswers
  dsimp only
  split
  · split
    · split
      · exact Nat.add_comm _ _
      · trivial
    · trivial
  · trivial

theorem spends_next (w : World) (resume : Resume) (jobs : List Job) :
    (next w resume jobs).1.Spends (Job.costOf jobs) := by
  refine next_cases (motive := fun jobs result => result.1.Spends (Job.costOf jobs)) w resume jobs
    ?done ?through ?acted ?entered ?passed ?worked ?ticked ?keyed ?keyless ?answered
  case done => trivial
  case through =>
    intro jobs ih
    simp only [Job.costOf, Job.cost, Instruction.ticksOf, Nat.zero_add]
    exact ih
  case acted =>
    intro origin action rest jobs
    simp only [Job.costOf, Job.cost, Instruction.ticksOf, Instruction.ticks, Nat.add_assoc]
    exact spends_ofAction w action
  case entered =>
    intro origin count body rest jobs
    have entered := spends_enterLoop count body (.block rest :: jobs)
    simp only [Job.costOf, Job.cost, Instruction.ticksOf, Instruction.ticks, Nat.add_assoc] at entered ⊢
    exact entered
  case passed => exact fun left body jobs => spends_enterLoop left body jobs
  case worked =>
    intro jobs ih
    simp only [Job.costOf, Job.cost, Nat.zero_add]
    exact ih
  case ticked =>
    intro left jobs
    simp only [Spends, Job.costOf, Job.cost]
    omega
  case keyed => exact fun jobs code _ => Nat.add_comm _ _
  case keyless => exact fun jobs _ => ⟨rfl, rfl⟩
  case answered => exact fun origin request targets jobs => spends_ofAnswers w request targets resume

end Step

namespace Run

/-- A batch that has used up its budget has let as many ticks pass. -/
theorem ticksLeft_batch (w : World) (resume : Resume) (jobs : List Job) (budget : Nat) :
    (batch w resume jobs budget).1 = .more →
      (batch w resume jobs budget).2.ticksLeft + budget = Job.costOf jobs := by
  induction budget generalizing w resume jobs with
  | zero => exact fun _ => rfl
  | succ budget ih =>
      have spent := Step.spends_next w resume jobs
      unfold batch
      cases stepped : Step.next w resume jobs with
      | mk step later =>
          rw [stepped] at spent
          cases step with
          | tick jobs =>
              intro more
              have rest := ih later .nothing jobs more
              simp only [Step.Spends] at spent
              dsimp only
              omega
          | wait outcome jobs =>
              intro more
              have waits : outcome.isWait = true := spent.1
              rw [show outcome = .more from more] at waits
              cases waits
          | fail | done => exact fun other => by cases other

theorem ticksLeft_exec {run later : Run} {resume : Resume} {maxTicks : Nat}
    (more : run.exec resume maxTicks = (.more, later)) : later.ticksLeft < run.ticksLeft := by
  unfold exec at more
  cases left : run.jobs with
  | none =>
      rw [left] at more
      cases more
  | some jobs =>
      rw [left] at more
      have spent := ticksLeft_batch run.world resume jobs (max maxTicks 1)
      dsimp only at more
      rw [more] at spent
      have all := spent rfl
      simp only [ticksLeft, left] at all ⊢
      omega

end Run

end PocketBasic
