import PocketBasic.Program.Computer
import PocketBasic.Proofs.Program.Direct
import PocketBasic.Proofs.Program.Ticks

/-! # Batches do not show

A program is cut into batches wherever the budget ends, inside loops and in the middle of work. What is
left at such a point is a stack of jobs, and the stack stands for the rest of the account that the program
gives when it is run in one go. A tick changes the stack and not what it stands for, so it makes no
difference to the outside how many ticks a batch has.
-/

namespace PocketBasic

theorem Computer.exec_run {c later : Computer} {resume : Resume} {budget : Nat} {outcome : Outcome}
    (ran : c.exec resume budget = (outcome, later)) :
    c.run.exec resume budget = (outcome, later.run) := by
  have ended := congrArg Prod.fst ran
  have left := congrArg (·.2.run) ran
  exact Prod.ext ended left

/-- What is seen of a computer that is called again and again: why its batches end, unless it is for
    want of ticks, and the world at these points. Call by call it gets a budget. The answers go to the
    calls after a wait, one each, and there are calls until the program is over or the answers are used up. -/
def Computer.transcript (budgets : Nat → Nat) (c : Computer) (resume : Resume)
    (answers : List Resume) : Transcript :=
  match ran : c.exec resume (budgets 0) with
  | (.more, later) => later.transcript (fun i => budgets (i + 1)) .nothing answers
  | (outcome, later) =>
      (outcome, later.run.world) ::
        match outcome.isWait, answers with
        | true, answer :: rest => later.transcript (fun i => budgets (i + 1)) answer rest
        | _, _ => []
termination_by (answers.length, c.run.ticksLeft)
decreasing_by
  · exact Prod.Lex.right _ (Run.ticksLeft_exec (exec_run ran))
  · exact Prod.Lex.left _ _ (Nat.lt_succ_self _)

/-! ## Accounts -/

namespace Account

variable {w : World} {answers : List Resume} {outcome : Outcome}

@[simp] theorem andThen_passed (next : Piece) : (passed w answers).andThen next = next w answers := rfl

@[simp] theorem andThen_ended (next : Piece) : (ended outcome w).andThen next = ended outcome w := rfl

theorem andThen_assoc (a : Account) (first second : Piece) :
    (a.andThen first).andThen second = a.andThen fun w answers => (first w answers).andThen second := by
  obtain ⟨seen, left⟩ := a
  cases left with
  | none => rfl
  | some left =>
      obtain ⟨w, answers⟩ := left
      simp only [andThen]
      generalize first w answers = b
      obtain ⟨seen', left'⟩ := b
      cases left' with
      | none => rfl
      | some later => simp only [List.append_assoc]

/-- A wait comes before whatever follows. -/
theorem wait_andThen (answered : Resume → List Resume → Account) (next : Piece) :
    (wait outcome w answered answers).andThen next =
      wait outcome w (fun answer rest => (answered answer rest).andThen next) answers := by
  cases answers with
  | nil => rfl
  | cons answer rest =>
      simp only [wait, andThen]
      generalize answered answer rest = b
      obtain ⟨seen, left⟩ := b
      cases left <;> rfl

end Account

/-! ## What is left of a program -/

/-- A job that does not wait. -/
def Job.IsPlain : Job → Prop
  | .awaitKey | .awaitAnswers _ _ _ => False
  | _ => True

/-- What a job stands for, when its first call is given an answer. -/
def Job.account (resume : Resume) : Job → Piece
  | .block rest => Direct.block rest
  | .passes left body => Direct.times (Direct.block body) left
  | .ticks _ => .passed
  | .awaitKey => fun w => Direct.key w resume
  | .awaitAnswers origin request targets => fun w => Direct.values w origin request targets resume

/-- What a stack of jobs stands for. Only the job on top gets the answer. -/
def Job.accountOf (resume : Resume) : List Job → Piece
  | [] => fun w _ => .ended .done w
  | job :: jobs => fun w answers => (job.account resume w answers).andThen (accountOf .nothing jobs)

/-- A job that does not wait does not look at an answer. -/
theorem Job.accountOf_plain (resume : Resume) {jobs : List Job} (plain : ∀ job ∈ jobs, job.IsPlain) :
    accountOf resume jobs = accountOf .nothing jobs := by
  cases jobs with
  | nil => rfl
  | cons job jobs =>
      cases job with
      | block | passes | ticks => rfl
      | awaitKey | awaitAnswers => exact absurd (plain _ List.mem_cons_self) id

namespace Step

/-- A step and what is left after it make up an account. No job but the first may be waiting. -/
def Tells (account : List Resume → Account) : Step × World → Prop
  | (.tick jobs, w) => (∀ job ∈ jobs, job.IsPlain) ∧ account = Job.accountOf .nothing jobs w
  | (.wait outcome jobs, w) =>
      (∀ job ∈ jobs.tail, job.IsPlain) ∧
        account = .wait outcome w fun answer => Job.accountOf answer jobs w
  | (.fail fault, w) => account = fun _ => .ended (.failed fault) w
  | (.done, w) => account = fun _ => .ended .done w

variable {jobs : List Job} (plain : ∀ job ∈ jobs, job.IsPlain)

include plain

theorem tells_enterLoop (w : World) (left : Nat) (body : List Instruction) :
    Tells (fun answers =>
        (Direct.times (Direct.block body) left w answers).andThen (Job.accountOf .nothing jobs))
      (enterLoop left body jobs, w) := by
  cases left with
  | zero => exact ⟨plain, rfl⟩
  | succ left =>
      refine ⟨?_, ?_⟩
      · simp only [List.forall_mem_cons]
        exact ⟨trivial, trivial, plain⟩
      · funext answers
        simp only [Direct.times, Account.andThen_assoc]
        rfl

theorem tells_ofAnswers (w : World) (origin : Origin) (request : Request)
    (targets : List (Option String)) (resume : Resume) :
    Tells (fun answers =>
        (Direct.values w origin request targets resume answers).andThen (Job.accountOf .nothing jobs))
      (ofAnswers w origin request targets jobs resume) := by
  unfold ofAnswers Direct.values
  cases resume with
  | nothing | key code => rfl
  | answers values =>
      dsimp only
      split
      · cases World.storeAnswers w.store values targets with
        | mk error store =>
            cases error with
            | none => exact ⟨plain, rfl⟩
            | some e => rfl
      · rfl

theorem tells_ofAction (w : World) (origin : Origin) (action : Action) :
    Tells (fun answers =>
        (Direct.action origin action w answers).andThen (Job.accountOf .nothing jobs))
      (ofAction w origin jobs action) := by
  cases action with
  | clearScreen | fill area | clear area | invert area => exact ⟨plain, rfl⟩
  | moveCursor x y =>
      simp only [ofAction, Direct.action, Action.effect]
      cases w.operandValue x with
      | error message => rfl
      | ok x =>
          cases w.operandValue y with
          | error message => rfl
          | ok y => exact ⟨plain, rfl⟩
  | work n =>
      simp only [ofAction]
      split
      · exact ⟨plain, rfl⟩
      · exact ⟨List.forall_mem_cons.mpr ⟨trivial, plain⟩, rfl⟩
  | sleep ms =>
      refine ⟨plain, ?_⟩
      funext answers
      exact Account.wait_andThen _ _
  | inkey =>
      refine ⟨plain, ?_⟩
      funext answers
      exact Account.wait_andThen _ _
  | input request targets =>
      refine ⟨plain, ?_⟩
      funext answers
      exact Account.wait_andThen _ _
  | assign name subs value =>
      simp only [ofAction, Direct.action, Action.effect]
      generalize (if subs.isEmpty then w.store.assign name value
        else w.store.setElement name subs value) = stored
      cases stored with
      | ok store => exact ⟨plain, rfl⟩
      | error e => rfl
  | dim name dims =>
      simp only [ofAction, Direct.action, Action.effect]
      cases w.store.dim name dims with
      | already => rfl
      | bound | uncountable => exact ⟨plain, rfl⟩
  | openFile name =>
      simp only [ofAction, Direct.action, Action.effect]
      cases w.openFile with
      | none => exact ⟨plain, rfl⟩
      | some other => rfl
  | closeFile =>
      simp only [ofAction, Direct.action, Action.effect]
      cases w.openFile with
      | none => rfl
      | some name => exact ⟨plain, rfl⟩
  | fail | finish => rfl

/-- Only a key ends the wait for one. -/
theorem tells_awaitKey (w : World) (resume : Resume) :
    Tells (Job.accountOf resume (.awaitKey :: jobs) w) (next w resume (.awaitKey :: jobs)) := by
  have keyed (code : UInt8) : Direct.key w (.key code) = .passed { w with lastKey := some code } := by
    funext answers
    cases answers <;> rfl
  have asked (other : ∀ code, resume ≠ .key code) : Direct.key w resume = .wait .key w (Direct.key w) := by
    funext answers
    cases resume with
    | key code => exact absurd rfl (other code)
    | nothing | answers values => cases answers <;> rfl
  have unfolded : Job.accountOf resume (.awaitKey :: jobs) w =
      fun answers => (Direct.key w resume answers).andThen (Job.accountOf .nothing jobs) := rfl
  rw [unfolded]
  cases resume with
  | key code =>
      rw [keyed]
      exact ⟨plain, rfl⟩
  | nothing | answers values =>
      rw [asked fun _ => Resume.noConfusion]
      refine ⟨plain, ?_⟩
      funext answers
      exact Account.wait_andThen _ _

omit plain

theorem tells_next (w : World) (resume : Resume) {jobs : List Job}
    (plain : ∀ job ∈ jobs.tail, job.IsPlain) :
    Tells (Job.accountOf resume jobs w) (next w resume jobs) := by
  -- Only a job that is done already is stepped over, and then the next one gets the answer.
  induction jobs with
  | nil => rfl
  | cons job jobs ih =>
      have rest : ∀ job ∈ jobs, job.IsPlain := plain
      have stepOver (same : Job.accountOf resume (job :: jobs) w = Job.accountOf .nothing jobs w) :
          Tells (Job.accountOf resume (job :: jobs) w) (next w resume jobs) := by
        rw [same, ← Job.accountOf_plain resume rest]
        exact ih fun job inside => rest job (List.mem_of_mem_tail inside)
      cases job with
      | block instructions =>
          cases instructions with
          | nil => exact stepOver rfl
          | cons i later =>
              have below : ∀ job ∈ Job.block later :: jobs, job.IsPlain :=
                List.forall_mem_cons.mpr ⟨trivial, rest⟩
              have same : Job.accountOf resume (.block (i :: later) :: jobs) w = fun answers =>
                  (Direct.instruction i w answers).andThen
                    (Job.accountOf .nothing (.block later :: jobs)) := by
                funext answers
                exact Account.andThen_assoc _ _ _
              rw [same]
              cases i with
              | act origin action => exact tells_ofAction below w origin action
              | loop origin count body => exact tells_enterLoop below w count body
      | passes left body => exact tells_enterLoop rest w left body
      | ticks left =>
          cases left with
          | zero => exact stepOver rfl
          | succ left => exact ⟨List.forall_mem_cons.mpr ⟨trivial, rest⟩, rfl⟩
      | awaitKey => exact tells_awaitKey rest w resume
      | awaitAnswers origin request targets =>
          exact tells_ofAnswers rest w origin request targets resume

end Step

/-! ## Batches -/

/-- A batch and what is left after it make up an account. -/
inductive Run.Tells (account : List Resume → Account) : Outcome × Run → Prop where
  | more {run : Run} {jobs : List Job} (left : run.jobs = some jobs) (plain : ∀ job ∈ jobs, job.IsPlain)
      (told : account = Job.accountOf .nothing jobs run.world) : Tells account (.more, run)
  | wait {outcome : Outcome} {run : Run} {jobs : List Job} (waits : outcome.isWait = true)
      (left : run.jobs = some jobs) (plain : ∀ job ∈ jobs.tail, job.IsPlain)
      (told : account = .wait outcome run.world fun answer => Job.accountOf answer jobs run.world) :
      Tells account (outcome, run)
  | ended {outcome : Outcome} {run : Run} (other : outcome ≠ .more) (ends : outcome.isWait = false)
      (told : account = fun _ => .ended outcome run.world) : Tells account (outcome, run)

namespace Run

variable {jobs : List Job}

/-- The answer goes to the first step of a batch. -/
theorem tells_first (w : World) (resume : Resume) (plain : ∀ job ∈ jobs.tail, job.IsPlain)
    {budget : Nat}
    (rest : ∀ w {jobs : List Job}, (∀ job ∈ jobs, job.IsPlain) →
      Tells (Job.accountOf .nothing jobs w) (batch w .nothing jobs budget)) :
    Tells (Job.accountOf resume jobs w) (batch w resume jobs (budget + 1)) := by
  have told := Step.tells_next w resume plain
  have spent := Step.spends_next w resume jobs
  unfold batch
  cases stepped : Step.next w resume jobs with
  | mk step later =>
      rw [stepped] at told spent
      cases step with
      | tick jobs =>
          rw [told.2]
          exact rest later told.1
      | wait outcome jobs => exact .wait spent.1 rfl told.1 told.2
      | fail fault => exact .ended Outcome.noConfusion rfl told
      | done => exact .ended Outcome.noConfusion rfl told

theorem tells_batch (w : World) (plain : ∀ job ∈ jobs, job.IsPlain) (budget : Nat) :
    Tells (Job.accountOf .nothing jobs w) (batch w .nothing jobs budget) := by
  induction budget generalizing w jobs with
  | zero => exact .more rfl plain rfl
  | succ budget ih =>
      exact tells_first w .nothing (fun job inside => plain job (List.mem_of_mem_tail inside))
        fun w _ plain => ih w plain

theorem tells_exec {run : Run} (left : run.jobs = some jobs) (plain : ∀ job ∈ jobs.tail, job.IsPlain)
    (resume : Resume) (maxTicks : Nat) :
    Tells (Job.accountOf resume jobs run.world) (run.exec resume maxTicks) := by
  have positive : max maxTicks 1 = (max maxTicks 1 - 1) + 1 := by omega
  rw [exec, left]
  dsimp only
  rw [positive]
  exact tells_first run.world resume plain fun w _ plain => tells_batch w plain _

end Run

namespace Computer

/-- What is left of a program is told to its end, however it is cut up. -/
theorem transcript_eq (budgets : Nat → Nat) (c : Computer) (resume : Resume) (answers : List Resume)
    {jobs : List Job} (left : c.run.jobs = some jobs) (plain : ∀ job ∈ jobs.tail, job.IsPlain) :
    c.transcript budgets resume answers =
      (Job.accountOf resume jobs c.run.world answers).seen := by
  fun_induction transcript budgets c resume answers generalizing jobs with
  | case1 budgets c resume answers later ran ih =>
      have told := Run.tells_exec left plain resume (budgets 0)
      rw [exec_run ran] at told
      cases told with
      | more left plain told =>
          rw [told]
          exact ih left fun job inside => plain job (List.mem_of_mem_tail inside)
      | wait waits => cases waits
      | ended other => exact absurd rfl other
  | case2 budgets c resume answers outcome later other ran ih =>
      have told := Run.tells_exec left plain resume (budgets 0)
      rw [exec_run ran] at told
      cases told with
      | more => exact absurd rfl other
      | wait waits left plain told =>
          rw [waits] at ih ⊢
          rw [told]
          cases answers with
          | nil => rfl
          | cons answer rest => exact congrArg _ (ih left plain)
      | ended _ ends told =>
          rw [ends, told]
          rfl

/-- The program of a computer that starts from the top shows the same whatever the budgets of its batches,
    and that is what it does in one go. -/
theorem transcript_eq_direct (c : Computer) (answers : List Resume) (budgets others : Nat → Nat) :
    c.reset.transcript budgets .nothing answers = c.reset.transcript others .nothing answers ∧
      c.reset.transcript budgets .nothing answers =
        Direct.program c.program (.fresh c.handset) answers := by
  have direct (budgets : Nat → Nat) : c.reset.transcript budgets .nothing answers =
      Direct.program c.program (.fresh c.handset) answers := by
    have left : c.reset.run.jobs = some [.block c.program] := rfl
    exact transcript_eq budgets c.reset .nothing answers left fun job inside => by cases inside
  exact ⟨(direct budgets).trans (direct others).symm, direct budgets⟩

end Computer

end PocketBasic
