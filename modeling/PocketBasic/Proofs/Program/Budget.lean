import PocketBasic.Proofs.Program.Batches

/-! # How many batches a program takes

A batch ends with its budget, and the last one with the program. The ticks that a program takes up to its end
can be read off its text as long as it neither waits nor fails, since nothing else makes it turn: an end inside
loops leaves them all, and everything behind it costs nothing. So the batches of a program can be counted.
-/

namespace PocketBasic

/-- What a piece of a program costs: its ticks, those up to the end of the program if that is reached in it. -/
structure Price where
  ticks : Nat
  ends : Bool
  deriving Repr, DecidableEq

namespace Price

/-- The price of two pieces one after the other. What comes after the end is never reached. -/
def andThen (a b : Price) : Price :=
  if a.ends then a else ⟨a.ticks + b.ticks, b.ends⟩

/-- The price of a loop: one tick more before each pass, and one to leave. -/
def passes (count : Nat) (body : Price) : Price :=
  if count ≠ 0 ∧ body.ends then ⟨1 + body.ticks, true⟩ else ⟨count * (1 + body.ticks) + 1, false⟩

end Price

/-- The end costs nothing. -/
def Action.price : Action → Price
  | .finish => ⟨0, true⟩
  | action => ⟨action.ticks, false⟩

mutual

def Instruction.price : Instruction → Price
  | .act _ action => action.price
  | .loop _ count body => .passes count (Instruction.priceOf body)

/-- The price of instructions that are run one after the other. -/
def Instruction.priceOf : List Instruction → Price
  | [] => ⟨0, false⟩
  | i :: rest => i.price.andThen (Instruction.priceOf rest)

end

/-- Why the batches of a computer end that is called with these answers one after the other, each time for so
    many ticks at most. -/
def Computer.outcomes (c : Computer) (maxTicks : Nat) : List Resume → List Outcome
  | [] => []
  | resume :: rest => (c.exec resume maxTicks).1 :: (c.exec resume maxTicks).2.outcomes maxTicks rest

/-! ## Prices -/

namespace Price

@[simp] theorem free_andThen (a : Price) : andThen ⟨0, false⟩ a = a := by
  simp [andThen]

theorem andThen_assoc (a b c : Price) : (a.andThen b).andThen c = a.andThen (b.andThen c) := by
  obtain ⟨ticks, ends⟩ := a
  cases ends with
  | true => rfl
  | false => cases ends : b.ends <;> simp [andThen, ends, Nat.add_assoc]

theorem succ_andThen (n : Nat) (a : Price) :
    andThen ⟨n + 1, false⟩ a = andThen ⟨1, false⟩ (andThen ⟨n, false⟩ a) := by
  simp [andThen, Nat.add_assoc, Nat.add_left_comm]

/-- A loop is its first pass and then the loop of the passes that are left. -/
theorem passes_succ (left : Nat) (body : Price) :
    passes (left + 1) body = andThen ⟨1, false⟩ (body.andThen (passes left body)) := by
  obtain ⟨ticks, ends⟩ := body
  cases ends with
  | true => simp [passes, andThen]
  | false =>
      simp only [passes, andThen, Bool.false_eq_true, and_false, if_false, Nat.succ_mul]
      congr 1
      omega

end Price

/-- The price of a piece of work. -/
def Job.price : Job → Price
  | .block rest => Instruction.priceOf rest
  | .passes left body => .passes left (Instruction.priceOf body)
  | .ticks left => ⟨left, false⟩
  | .awaitKey => ⟨1, false⟩
  | .awaitAnswers _ _ _ => ⟨1, false⟩

/-- The price of all the work. The program ends with it. -/
def Job.priceOf : List Job → Price
  | [] => ⟨0, true⟩
  | job :: jobs => job.price.andThen (Job.priceOf jobs)

namespace Step

/-- A step that lets a tick pass takes one off, and the end comes when there are none. -/
def Pays (total : Price) : Step → Prop
  | .tick jobs => total = Price.andThen ⟨1, false⟩ (Job.priceOf jobs)
  | .wait _ _ | .fail _ => True
  | .done => total.ticks = 0

variable {origin : Origin} {jobs : List Job}

theorem pays_enterLoop (left : Nat) (body : List Instruction) (jobs : List Job) :
    (enterLoop left body jobs).Pays
      ((Price.passes left (Instruction.priceOf body)).andThen (Job.priceOf jobs)) := by
  cases left with
  | zero => simp [enterLoop, Pays, Price.passes]
  | succ left =>
      rw [Price.passes_succ, Price.andThen_assoc, Price.andThen_assoc]
      rfl

theorem pays_ofAction (w : World) (action : Action) :
    (ofAction w origin jobs action).1.Pays (action.price.andThen (Job.priceOf jobs)) := by
  have tick : (Step.tick jobs).Pays (Price.andThen ⟨1, false⟩ (Job.priceOf jobs)) := rfl
  cases action with
  | clearScreen | fill | clear | invert => exact tick
  | moveCursor x y =>
      simp only [ofAction]
      split
      · trivial
      · split
        · trivial
        · exact tick
  | work n =>
      simp only [ofAction, Action.price, Action.ticks, Pays]
      split
      · rename_i small
        rw [Nat.max_eq_right small]
      · rename_i large
        have rest : max n 1 = (n - 1) + 1 := by omega
        rw [rest]
        exact Price.succ_andThen _ _
  | sleep | inkey | input => trivial
  | assign | dim =>
      simp only [ofAction]
      split
      all_goals first
        | exact tick
        | trivial
  | openFile | closeFile =>
      simp only [ofAction]
      split
      all_goals first
        | exact tick
        | trivial
  | fail => trivial
  | finish => rfl

theorem pays_ofAnswers (w : World) (request : Request) (targets : List (Option String))
    (resume : Resume) :
    (ofAnswers w origin request targets jobs resume).1.Pays
      (Price.andThen ⟨1, false⟩ (Job.priceOf jobs)) := by
  unfold ofAnswers
  dsimp only
  split
  · split
    · split
      · rfl
      · trivial
    · trivial
  · trivial

theorem pays_next (w : World) (resume : Resume) (jobs : List Job) :
    (next w resume jobs).1.Pays (Job.priceOf jobs) := by
  refine next_cases (motive := fun jobs result => result.1.Pays (Job.priceOf jobs)) w resume jobs
    ?done ?through ?acted ?entered ?passed ?worked ?ticked ?keyed ?keyless ?answered
  case done => rfl
  case through =>
    intro jobs ih
    rw [Job.priceOf, Job.price, Instruction.priceOf, Price.free_andThen]
    exact ih
  case acted =>
    intro origin action rest jobs
    rw [Job.priceOf, Job.price, Instruction.priceOf, Instruction.price, Price.andThen_assoc]
    exact pays_ofAction w action
  case entered =>
    intro origin count body rest jobs
    rw [Job.priceOf, Job.price, Instruction.priceOf, Instruction.price, Price.andThen_assoc]
    exact pays_enterLoop count body (.block rest :: jobs)
  case passed => exact fun left body jobs => pays_enterLoop left body jobs
  case worked =>
    intro jobs ih
    rw [Job.priceOf, Job.price, Price.free_andThen]
    exact ih
  case ticked => exact fun left jobs => Price.succ_andThen left (Job.priceOf jobs)
  case keyed => exact fun jobs code _ => rfl
  case keyless => exact fun jobs _ => trivial
  case answered => exact fun origin request targets jobs => pays_ofAnswers w request targets resume

end Step

/-! ## Programs that neither wait nor fail -/

/-- Nothing is seen of the work but that the program ends. -/
structure Job.Quiet (jobs : List Job) (w : World) : Prop where
  plain : ∀ job ∈ jobs, job.IsPlain
  ends : ∀ seen ∈ (Job.accountOf .nothing jobs w []).seen, seen.1 = .done

namespace Run

/-- What is left of a run neither waits nor fails, and takes so many ticks. -/
def QuietFor (run : Run) (ticks : Nat) : Prop :=
  ∃ jobs, run.jobs = some jobs ∧ Job.Quiet jobs run.world ∧ (Job.priceOf jobs).ticks = ticks

/-- How a batch ends that has `maxTicks` ticks when `left` of them are left of the program. -/
def Counts (maxTicks left : Nat) (result : Outcome × Run) : Prop :=
  maxTicks ≤ left ∧ result.1 = .more ∧ result.2.QuietFor (left - maxTicks) ∨
    left < maxTicks ∧ result.1 = .done ∧ result.2.jobs = none

end Run

/-- A quiet program goes on quietly until it ends. -/
theorem Job.Quiet.next {jobs : List Job} {w : World} (quiet : Job.Quiet jobs w) (resume : Resume) :
    (∃ jobs' w', Step.next w resume jobs = (.tick jobs', w') ∧ Job.Quiet jobs' w') ∨
      ∃ w', Step.next w resume jobs = (.done, w') := by
  have told := Step.tells_next w resume fun job inside => quiet.plain job (List.mem_of_mem_tail inside)
  have spent := Step.spends_next w resume jobs
  have ends := quiet.ends
  rw [Job.accountOf_plain resume quiet.plain] at told
  cases stepped : Step.next w resume jobs with
  | mk step w' =>
      rw [stepped] at told spent
      cases step with
      | tick jobs' =>
          obtain ⟨plain, account⟩ := told
          rw [account] at ends
          exact .inl ⟨jobs', w', rfl, plain, ends⟩
      | wait outcome jobs' =>
          -- Without an answer the account stops at the wait, which is not the end.
          rw [told.2] at ends
          have ended : outcome = .done := ends (outcome, w') List.mem_cons_self
          have waits := spent.1
          rw [ended] at waits
          cases waits
      | fail fault =>
          rw [told] at ends
          cases ends (.failed fault, w') List.mem_cons_self
      | done => exact .inr ⟨w', rfl⟩

namespace Run

theorem counts_batch {jobs : List Job} {w : World} (quiet : Job.Quiet jobs w) (resume : Resume)
    (budget : Nat) : Counts budget (Job.priceOf jobs).ticks (batch w resume jobs budget) := by
  induction budget generalizing w resume jobs with
  | zero => exact .inl ⟨Nat.zero_le _, rfl, jobs, rfl, quiet, rfl⟩
  | succ budget ih =>
      have paid := Step.pays_next w resume jobs
      unfold batch
      rcases quiet.next resume with ⟨jobs', w', stepped, quiet'⟩ | ⟨w', stepped⟩
      · rw [stepped] at paid ⊢
        have one_less : (Job.priceOf jobs).ticks = 1 + (Job.priceOf jobs').ticks := congrArg Price.ticks paid
        rcases ih quiet' .nothing with ⟨enough, more, left⟩ | ⟨short, ended⟩
        · refine .inl ⟨by omega, more, ?_⟩
          rwa [show (Job.priceOf jobs).ticks - (budget + 1) = (Job.priceOf jobs').ticks - budget by omega]
        · exact .inr ⟨by omega, ended⟩
      · rw [stepped] at paid ⊢
        exact .inr ⟨by rw [show (Job.priceOf jobs).ticks = 0 from paid]; omega, rfl, rfl⟩

theorem QuietFor.exec {run : Run} {left maxTicks : Nat} (quiet : run.QuietFor left)
    (positive : 0 < maxTicks) (resume : Resume) : Counts maxTicks left (run.exec resume maxTicks) := by
  obtain ⟨jobs, some, quiet, rfl⟩ := quiet
  rw [Run.exec, some, Nat.max_eq_left positive]
  exact counts_batch quiet resume maxTicks

end Run

namespace Computer

variable {c : Computer} {maxTicks : Nat}

theorem outcomes_of_finished (finished : c.run.jobs = none) (maxTicks : Nat) (resumes : List Resume) :
    c.outcomes maxTicks resumes = List.replicate resumes.length .done := by
  induction resumes with
  | nil => rfl
  | cons resume rest ih =>
      have same : c.exec resume maxTicks = (.done, c) := by simp only [exec, Run.exec, finished]
      rw [outcomes, same, ih]
      rfl

theorem outcomes_of_quietFor {left : Nat} (quiet : c.run.QuietFor left) (positive : 0 < maxTicks)
    (resumes : List Resume) :
    c.outcomes maxTicks resumes =
      List.replicate (min (left / maxTicks) resumes.length) .more ++
        List.replicate (resumes.length - left / maxTicks) .done := by
  induction resumes generalizing c left with
  | nil => simp [outcomes]
  | cons resume rest ih =>
      rcases quiet.exec positive resume with ⟨enough, more, less⟩ | ⟨short, ended, finished⟩
      · have batches : left / maxTicks = (left - maxTicks) / maxTicks + 1 :=
          Nat.div_eq_sub_div positive enough
        have first : (c.exec resume maxTicks).1 = .more := more
        rw [outcomes, first, ih (c := (c.exec resume maxTicks).2) less, batches, List.length_cons,
          Nat.succ_min_succ, List.replicate_succ, Nat.add_sub_add_right]
        rfl
      · have first : (c.exec resume maxTicks).1 = .done := ended
        rw [outcomes, first, outcomes_of_finished (c := (c.exec resume maxTicks).2) finished, Nat.div_eq_of_lt short,
          Nat.zero_min, Nat.sub_zero]
        rfl

theorem transcript_reset (c : Computer) (budgets : Nat → Nat) :
    c.reset.transcript budgets .nothing [] = Direct.program c.program (.fresh c.handset) [] := by
  have left : c.reset.run.jobs = some [.block c.program] := rfl
  exact transcript_eq budgets c.reset .nothing [] left fun job inside => by cases inside

/-- A program that is seen neither to wait nor to fail, however its run is cut up: in batches of the same
    budget as many of them use it up as it goes into the price of the program, and all after these find the
    program at its end, whatever any of them is given. -/
theorem outcomes_eq_replicate (c : Computer) {budgets : Nat → Nat}
    (quiet : ∀ seen ∈ c.reset.transcript budgets .nothing [], seen.1 = .done) (positive : 0 < maxTicks)
    (resumes : List Resume) :
    c.reset.outcomes maxTicks resumes =
      List.replicate (min ((Instruction.priceOf c.program).ticks / maxTicks) resumes.length) .more ++
        List.replicate (resumes.length - (Instruction.priceOf c.program).ticks / maxTicks) .done := by
  rw [transcript_reset] at quiet
  have start : Job.Quiet [.block c.program] c.reset.run.world := ⟨by simp [Job.IsPlain], quiet⟩
  have price : (Job.priceOf [.block c.program]).ticks = (Instruction.priceOf c.program).ticks := by
    cases ends : (Instruction.priceOf c.program).ends <;> simp [Job.priceOf, Job.price, Price.andThen, ends]
  exact outcomes_of_quietFor ⟨_, rfl, start, price⟩ positive resumes

/-- These 28 ticks are 4 batches of 7. The end is reached in the first pass of the last loop. -/
theorem outcomes_eq_replicate_nested :
    let source := "work 0\nrepeat 3\nwork 4\nrepeat 2\nnext\nnext\nrepeat 5\ncls\nend\nnext\nwork 9"
    let c := (load source).toOption.getD (ofProgram [])
    (∀ seen ∈ c.reset.transcript (fun _ => 3) .nothing [], seen.1 = .done) ∧
      (Instruction.priceOf c.program).ticks = 28 ∧
      c.reset.outcomes 7 (List.replicate 6 .nothing) = [.more, .more, .more, .more, .done, .done] := by
  intro source c
  have price : (Instruction.priceOf c.program).ticks = 28 := by decide +kernel
  have seen : (Direct.program c.program (.fresh c.handset) []).map (·.1) = [.done] := by decide +kernel
  have quiet : ∀ seen ∈ c.reset.transcript (fun _ => 3) .nothing [], seen.1 = .done := by
    intro entry member
    rw [transcript_reset] at member
    have outcome := List.mem_map_of_mem (f := (·.1)) member
    rw [seen] at outcome
    exact List.mem_singleton.mp outcome
  refine ⟨quiet, price, ?_⟩
  rw [outcomes_eq_replicate c quiet (by decide), price]
  rfl

end Computer

end PocketBasic
