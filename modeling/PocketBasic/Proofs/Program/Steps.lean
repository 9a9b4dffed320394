import PocketBasic.Program.Machine

/-! # The next step, case by case

A step looks at the job on top, and at nothing below it unless the top is used up. One rule says what each
kind of job comes to; proofs about a step go through it.
-/

namespace PocketBasic

@[elab_as_elim]
theorem Step.next_cases {motive : List Job → Step × World → Prop} (w : World) (resume : Resume)
    (jobs : List Job) (done : motive [] (.done, w))
    (through : ∀ jobs, motive jobs (next w resume jobs) →
      motive (.block [] :: jobs) (next w resume jobs))
    (acted : ∀ origin action rest jobs, motive (.block (.act origin action :: rest) :: jobs)
      (ofAction w origin (.block rest :: jobs) action))
    (entered : ∀ origin count body rest jobs, motive (.block (.loop origin count body :: rest) :: jobs)
      (enterLoop count body (.block rest :: jobs), w))
    (passed : ∀ left body jobs, motive (.passes left body :: jobs) (enterLoop left body jobs, w))
    (worked : ∀ jobs, motive jobs (next w resume jobs) →
      motive (.ticks 0 :: jobs) (next w resume jobs))
    (ticked : ∀ left jobs, motive (.ticks (left + 1) :: jobs) (.tick (.ticks left :: jobs), w))
    (keyed : ∀ jobs code, resume = .key code →
      motive (.awaitKey :: jobs) (.tick jobs, { w with lastKey := some code }))
    (keyless : ∀ jobs, (∀ code, resume ≠ .key code) →
      motive (.awaitKey :: jobs) (.wait .key (.awaitKey :: jobs), w))
    (answered : ∀ origin request targets jobs, motive (.awaitAnswers origin request targets :: jobs)
      (ofAnswers w origin request targets jobs resume)) :
    motive jobs (next w resume jobs) := by
  fun_induction next w resume jobs with
  | case1 => exact done
  | case2 jobs ih => exact through jobs ih
  | case3 origin action rest jobs => exact acted origin action rest jobs
  | case4 origin count body rest jobs => exact entered origin count body rest jobs
  | case5 left body jobs => exact passed left body jobs
  | case6 jobs ih => exact worked jobs ih
  | case7 left jobs => exact ticked left jobs
  | case8 jobs code key => exact keyed jobs code key
  | case9 jobs other => exact keyless jobs other
  | case10 origin request targets jobs => exact answered origin request targets jobs

end PocketBasic
