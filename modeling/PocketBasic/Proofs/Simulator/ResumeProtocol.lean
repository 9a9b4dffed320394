import PocketBasic.Proofs.Simulator.Recorder
import PocketBasic.Proofs.Simulator.Stage

/-! # The resume protocol

What a batch is resumed with answers what the batch before it ended with: nothing, the key that was in
front of the queue, or the values that were accepted for the very request. The scheduler keeps the
outcome, the state of the answer and the sleep in separate fields, which a stop and a start may reach at
any time; the log of a recorder says what these fields have to agree on.
-/

namespace PocketBasic

/-- The entry starts a wait, or a run. -/
def Entry.isMark : Entry → Bool
  | .begun | .ran _ _ => true
  | _ => false

def Entry.taken? : Entry → Option (UInt8 × List UInt8)
  | .took key waiting => some (key, waiting)
  | _ => none

def Entry.accepted? : Entry → Option (List Answer)
  | .answered values => some values
  | _ => none

def Entry.delivered? : Entry → Option (List Answer)
  | .ran (.answers values) _ => some values
  | _ => none

namespace Log

/-- The last batch of the run under way, or its beginning. -/
def latest (log : List Entry) : Option Entry := log.find? Entry.isMark

/-- What came after that. -/
def since (log : List Entry) : List Entry := log.takeWhile (!·.isMark)

/-- The run under way. -/
def run (log : List Entry) : List Entry := log.takeWhile (· ≠ .begun)

/-- The lists of answers that this run was supplied with, the newest in front. -/
def accepted (log : List Entry) : List (List Answer) := (run log).filterMap Entry.accepted?

/-- The lists of answers that batches of this run were resumed with, the newest in front. -/
def delivered (log : List Entry) : List (List Answer) := (run log).filterMap Entry.delivered?

/-- What the next batch may be resumed with after a log. -/
inductive Admits : List Entry → Resume → Prop where
  | begun {log : List Entry} (first : latest log = some .begun) : Admits log .nothing
  | more {log : List Entry} {resume : Resume} (before : latest log = some (.ran resume .more)) :
      Admits log .nothing
  | slept {log : List Entry} {resume : Resume} {nanoseconds : UInt64}
      (before : latest log = some (.ran resume (.sleep nanoseconds))) : Admits log .nothing
  /-- One key was taken since, and it was in front. -/
  | key {log : List Entry} {resume : Resume} {key : UInt8} {rest : List UInt8}
      (before : latest log = some (.ran resume .key))
      (taken : (since log).filterMap Entry.taken? = [(key, key :: rest)]) : Admits log (.key key)
  /-- One list was accepted since. -/
  | answers {log : List Entry} {resume : Resume} {request : Request} {values : List Answer}
      (before : latest log = some (.ran resume (.input request)))
      (accepted : (since log).filterMap Entry.accepted? = [values]) : Admits log (.answers values)

/-- The outcome that a scheduler keeps after a log. -/
inductive Ends : List Entry → Outcome → Prop where
  | ran {log : List Entry} {resume : Resume} {outcome : Outcome}
      (before : latest log = some (.ran resume outcome)) : Ends log outcome
  | begun {log : List Entry} (first : latest log = some .begun) : Ends log .more
  | slept {log : List Entry} {resume : Resume} {nanoseconds : UInt64}
      (before : latest log = some (.ran resume (.sleep nanoseconds))) : Ends log .more
  | failed {log : List Entry} {resume : Resume} {fault : RunFault}
      (before : latest log = some (.ran resume (.failed fault))) : Ends log .done

theorem ends_cons {log : List Entry} {entry : Entry} {outcome : Outcome}
    (unmarked : entry.isMark = false) (ends : Ends log outcome) : Ends (entry :: log) outcome := by
  have same : latest (entry :: log) = latest log := by
    simp only [latest, List.find?_cons, unmarked]
  cases ends with
  | ran before => exact .ran (same.trans before)
  | begun first => exact .begun (same.trans first)
  | slept before => exact .slept (same.trans before)
  | failed before => exact .failed (same.trans before)

/-- Every batch was resumed as the log before it admits. -/
def Followed (log : List Entry) : Prop :=
  ∀ resume outcome older, .ran resume outcome :: older <:+ log → Admits older resume

theorem followed_cons {log : List Entry} {entry : Entry} (followed : Followed log)
    (other : ∀ resume outcome, entry ≠ .ran resume outcome) : Followed (entry :: log) := by
  intro resume outcome older inside
  cases List.suffix_cons_iff.mp inside with
  | inl same => exact absurd (List.cons.inj same).1.symm (other resume outcome)
  | inr before => exact followed resume outcome older before

theorem followed_ran {log : List Entry} {resume : Resume} (followed : Followed log)
    (admitted : Admits log resume) (outcome : Outcome) :
    Followed (.ran resume outcome :: log) := by
  intro resume' outcome' older inside
  cases List.suffix_cons_iff.mp inside with
  | inl same =>
      cases same
      exact admitted
  | inr before => exact followed resume' outcome' older before

end Log

variable {σ : Type}

/-- The stage and the log of its rig tell the same story. Once a run has ended nothing is held, but the
    list that a stop took back was accepted all the same. -/
structure Stage.Linked (s : Stage (Recorder σ)) : Prop where
  followed : Log.Followed s.rig.log
  stopped : s.running = false → s.inputState = .idle
  ended : s.running = true → Log.Ends s.rig.log s.last
  untaken : s.running = true → (Log.since s.rig.log).filterMap Entry.taken? = []
  answered : s.running = true →
    (Log.since s.rig.log).filterMap Entry.accepted? = s.inputState.held
  supplied : ∃ held, held.length ≤ 1 ∧ Log.accepted s.rig.log = held ++ Log.delivered s.rig.log ∧
    (s.running = true → held = s.inputState.held)

namespace Recorder

variable [Engine σ] [Device σ] [KeyQueue σ]

theorem log_missed {rig other : Recorder σ} (missed : Device.takeKey rig = (none, other)) :
    other.log = rig.log := by
  simp only [Device.takeKey] at missed
  split at missed
  · cases missed
    rfl
  · cases missed

theorem log_aside {rig other : Recorder σ} (aside : Aside rig other) : other.log = rig.log :=
  aside.kept (fun _ _ => rfl) (fun _ => rfl) (fun _ => rfl) (fun _ => rfl) (fun _ _ => log_missed)
    (fun _ _ => rfl) (fun _ => rfl)

/-- The key that a device hands out was in front of its queue. -/
theorem log_taken {rig other : Recorder σ} {key : UInt8}
    (taken : Device.takeKey rig = (some key, other)) :
    ∃ rest, other.log = .took key (key :: rest) :: rig.log := by
  have front := KeyQueue.takeKey_fst rig.rig
  simp only [Device.takeKey] at taken
  split at taken
  · cases taken
  · rename_i first inner handed
    cases taken
    rw [handed] at front
    obtain ⟨rest, waiting⟩ := List.head?_eq_some_iff.mp front.symm
    exact ⟨rest, by rw [waiting]⟩

end Recorder

namespace Stage.Linked

variable {s : Stage (Recorder σ)}

/-- Nothing that was logged, and nothing that the scheduler keeps of a wait. -/
theorem of_same (linked : s.Linked) {other : Stage (Recorder σ)} (log : other.rig.log = s.rig.log)
    (running : other.running = s.running) (last : other.last = s.last)
    (inputState : other.inputState = s.inputState) : other.Linked := by
  obtain ⟨running', last', inputState', rig⟩ := other
  obtain ⟨inner, log'⟩ := rig
  subst log running last inputState
  exact ⟨linked.followed, linked.stopped, linked.ended, linked.untaken, linked.answered,
    linked.supplied⟩

/-- A sleep that is over is followed by a batch that is resumed with nothing. -/
theorem woken (linked : s.Linked) {nanoseconds : UInt64} (last : s.last = .sleep nanoseconds) :
    Stage.Linked { s with last := .more } := by
  refine ⟨linked.followed, linked.stopped, fun running => ?_, linked.untaken, linked.answered,
    linked.supplied⟩
  have ended := linked.ended running
  rw [last] at ended
  cases ended with
  | ran before => exact .slept before

theorem failed (linked : s.Linked) {fault : RunFault} (last : s.last = .failed fault) :
    Stage.Linked { s with last := .done } := by
  refine ⟨linked.followed, linked.stopped, fun running => ?_, linked.untaken, linked.answered,
    linked.supplied⟩
  have ended := linked.ended running
  rw [last] at ended
  cases ended with
  | ran before => exact .failed before

theorem asked (linked : s.Linked) (running : s.running = true) (idle : s.inputState = .idle) :
    Stage.Linked { s with inputState := .prompting } := by
  have answered := linked.answered
  have supplied := linked.supplied
  rw [idle] at answered supplied
  refine ⟨linked.followed, fun halted => ?_, linked.ended, linked.untaken, answered, supplied⟩
  rw [running] at halted
  cases halted

/-- Only a program that runs has a dialog open. -/
theorem running (linked : s.Linked) (busy : s.inputState ≠ .idle) : s.running = true := by
  cases running : s.running with
  | true => rfl
  | false => exact absurd (linked.stopped running) busy

/-- Answers are accepted only while none are held. -/
theorem provided (linked : s.Linked) (values : List Answer) (prompting : s.inputState = .prompting) :
    Stage.Linked
      { s with
        inputState := .ready values
        rig.log := .answered values :: s.rig.log } := by
  have running : s.running = true := linked.running (by rw [prompting]; exact InputState.noConfusion)
  have answered := linked.answered running
  obtain ⟨held, _, supplied, same⟩ := linked.supplied
  rw [same running] at supplied
  rw [prompting] at answered supplied
  refine ⟨?_, ?_, ?_, ?_, ?_, ?_⟩
  · exact Log.followed_cons linked.followed fun _ _ => Entry.noConfusion
  · intro halted
    rw [running] at halted
    cases halted
  · exact fun _ => Log.ends_cons rfl (linked.ended running)
  · exact linked.untaken
  · intro _
    exact congrArg (values :: ·) answered
  · exact ⟨[values], Nat.le_refl 1, congrArg (values :: ·) supplied, fun _ => rfl⟩

variable [Engine σ]

/-- A batch that the log admits is written down, and the wait before it is over. -/
theorem ran {rig : Recorder σ} {resume : Resume} (admitted : Log.Admits rig.log resume)
    (followed : Log.Followed rig.log)
    (supplied : Log.accepted rig.log = Log.delivered (.ran resume .done :: rig.log)) (budget : Nat) :
    (s.ran rig resume budget).Linked := by
  refine ⟨Log.followed_ran followed admitted _, fun _ => rfl, fun _ => .ran rfl, fun _ => rfl,
    fun _ => rfl, [], Nat.zero_le 1, ?_, fun _ => rfl⟩
  cases resume with
  | nothing | key | answers => exact supplied

variable [Device σ] [KeyQueue σ]

/-- What the scheduler resumes a batch with is what the log admits, and it is all that was supplied. -/
theorem due (linked : s.Linked) (running : s.running = true)
    (idle : (∀ request, s.last ≠ .input request) → s.inputState = .idle) {resume : Resume}
    {rig : Recorder σ} (due : s.Due resume rig) :
    Log.Admits rig.log resume ∧ Log.Followed rig.log ∧
      Log.accepted rig.log = Log.delivered (.ran resume .done :: rig.log) := by
  have ended := linked.ended running
  have answered := linked.answered running
  obtain ⟨held, _, supplied, same⟩ := linked.supplied
  rw [same running] at supplied
  cases due with
  | more last =>
      rw [idle (by simp [last])] at supplied
      rw [last] at ended
      refine ⟨?_, linked.followed, supplied⟩
      cases ended with
      | ran before => exact .more before
      | begun first => exact .begun first
      | slept before => exact .slept before
  | key last taken =>
      obtain ⟨rest, logged⟩ := Recorder.log_taken taken
      rw [idle (by simp [last])] at supplied
      rw [last] at ended
      rw [logged]
      refine ⟨?_, Log.followed_cons linked.followed fun _ _ => Entry.noConfusion, supplied⟩
      cases ended with
      | ran before => exact .key before (congrArg (_ :: ·) (linked.untaken running))
  | answers last ready =>
      rw [ready] at answered supplied
      rw [last] at ended
      refine ⟨?_, linked.followed, supplied⟩
      cases ended with
      | ran before => exact .answers before answered

/-- A step of the stage keeps to the protocol, once the answers that it brings are noted. -/
theorem step (linked : s.Linked) (idle : (∀ request, s.last ≠ .input request) → s.inputState = .idle)
    {keys : List UInt8} {answers : List (List Answer)} {other : Stage (Recorder σ)}
    (step : Stage.Step keys answers
      { s with rig.log := answers.map .answered ++ s.rig.log } other) : other.Linked := by
  cases step with
  | aside aside => exact linked.of_same (Recorder.log_aside aside) rfl rfl rfl
  | pressed key => exact linked.of_same rfl rfl rfl rfl
  | woken last => exact linked.woken last
  | asked running _ still => exact linked.asked running still
  | answered values prompting => exact linked.provided values prompting
  | ran budget running due aside =>
      obtain ⟨admitted, followed, supplied⟩ := linked.due running idle due
      rw [← Recorder.log_aside aside] at admitted followed supplied
      exact ran admitted followed supplied budget
  | failed last => exact linked.failed last

end Stage.Linked

/-! ## Runs -/

namespace Round

variable [Engine σ] [Device σ] [KeyQueue σ]

/-- Writes down that answers are going to be accepted. -/
def expecting (r : Round (Recorder σ)) (answers : List (List Answer)) : Round (Recorder σ) :=
  { r with bench.rig.log := answers.map .answered ++ r.bench.rig.log }

/-- An act on a recorder. The answers that it gets accepted are noted first. -/
def note (r : Round (Recorder σ)) : Act → Round (Recorder σ)
  | .move m => (r.expecting (r.accepts m)).move m
  | a => r.act a

def noted (r : Round (Recorder σ)) (as : List Act) : Round (Recorder σ) := as.foldl note r

theorem map_note (r : Round (Recorder σ)) (a : Act) :
    (r.note a).map Recorder.rig = (r.map Recorder.rig).act a := by
  cases a with
  | start => exact (map_act Recorder.hom r .start).symm
  | stop => exact (map_act Recorder.hom r .stop).symm
  | move m => exact (map_act Recorder.hom _ (.move m)).symm

theorem coherent_note {r : Round (Recorder σ)} (coherent : r.bench.scheduler.Coherent) (a : Act) :
    (r.note a).bench.scheduler.Coherent := by
  cases a with
  | start => exact coherent.act .start
  | stop => exact coherent.act .stop
  | move m =>
      have expecting : (r.expecting (r.accepts m)).bench.scheduler.Coherent := coherent
      exact expecting.move m

theorem linked_note {r : Round (Recorder σ)} (coherent : r.bench.scheduler.Coherent)
    (linked : r.bench.stage.Linked) (a : Act) : (r.note a).bench.stage.Linked := by
  cases a with
  | start =>
      obtain ⟨rig, aside, started⟩ := r.bench.stage_start
      have log : (Device.restart rig).log = .begun :: r.bench.rig.log := Recorder.log_aside aside
      simp only [note, act, started]
      refine ⟨?_, fun _ => rfl, ?_, ?_, ?_, [], Nat.zero_le 1, ?_, fun _ => rfl⟩ <;> rw [log]
      · exact Log.followed_cons linked.followed fun _ _ => Entry.noConfusion
      · exact fun _ => .begun rfl
      · exact fun _ => rfl
      · exact fun _ => rfl
      · rfl
  | stop =>
      obtain ⟨rig, aside, stopped⟩ := r.bench.stage_stop
      have log : rig.log = r.bench.rig.log := Recorder.log_aside aside
      obtain ⟨held, most, supplied, _⟩ := linked.supplied
      have halted {p : Prop} (running : false = true) : p := by cases running
      -- A list that was held is taken back: it stays accepted and is never delivered.
      simp only [note, act, stopped]
      refine ⟨?_, fun _ => rfl, halted, halted, halted, held, most, ?_, halted⟩ <;> rw [log]
      · exact linked.followed
      · exact supplied
  | move m =>
      have expecting : (r.expecting (r.accepts m)).bench.scheduler.Coherent := coherent
      exact linked.step coherent.idle (steps_move expecting m)

theorem linked_noted {r : Round (Recorder σ)} (coherent : r.bench.scheduler.Coherent)
    (linked : r.bench.stage.Linked) (as : List Act) : (r.noted as).bench.stage.Linked := by
  induction as generalizing r with
  | nil => exact linked
  | cons a rest ih => exact ih (coherent_note coherent a) (linked_note coherent linked a)

theorem map_noted (r : Round (Recorder σ)) (as : List Act) :
    (r.noted as).map Recorder.rig = (r.map Recorder.rig).acts as := by
  induction as generalizing r with
  | nil => rfl
  | cons a rest ih =>
      simp only [noted, acts, List.foldl_cons] at ih ⊢
      rw [ih, map_note]

omit [Engine σ] [Device σ] [KeyQueue σ] in
theorem linked_fresh (settings : SimulatorSettings) (rig : σ) :
    (fresh settings (⟨rig, []⟩ : Recorder σ)).bench.stage.Linked := by
  have halted {p : Prop} (running : false = true) : p := by cases running
  refine ⟨?_, fun _ => rfl, halted, halted, halted, [], Nat.zero_le 1, rfl, fun _ => rfl⟩
  intro resume outcome older inside
  cases List.suffix_nil.mp inside

/-- Whatever happens, in whatever order: recording changes nothing, every batch is resumed as the log
    before it admits, and the lists of answers that the batches of a run are resumed with are those that
    it was supplied with, in order and once each, but for one that may still wait. -/
theorem resumes_follow_outcomes (settings : SimulatorSettings) (rig : σ) (as : List Act) :
    let r := (fresh settings (⟨rig, []⟩ : Recorder σ)).noted as
    r.map Recorder.rig = (fresh settings rig).acts as ∧
      (∀ resume outcome older, .ran resume outcome :: older <:+ r.bench.rig.log →
        Log.Admits older resume) ∧
      ∃ held, held.length ≤ 1 ∧
        Log.accepted r.bench.rig.log = held ++ Log.delivered r.bench.rig.log := by
  intro r
  have linked : r.bench.stage.Linked :=
    linked_noted (.of_idle rfl rfl) (linked_fresh settings rig) as
  obtain ⟨held, most, supplied, _⟩ := linked.supplied
  exact ⟨map_noted _ as, linked.followed, held, most, supplied⟩

/-- A key that is pressed while the program waits for one. -/
theorem resumes_follow_outcomes_inkey :
    let rig : Playback := ⟨.ofResults [.key], .ofLit []⟩
    let acts : List Act :=
      [.start, .move (.stray .runStep), .move (.stray .runStep), .move (.press 65),
        .move (.stray .runStep)]
    let log := ((fresh .standard (⟨rig, []⟩ : Recorder Playback)).noted acts).bench.rig.log
    Log.Followed log ∧ log = [.ran (.key 65) .done, .took 65 [65], .ran .nothing .key, .begun] := by
  intro rig acts log
  refine ⟨?_, by decide +kernel⟩
  exact (resumes_follow_outcomes .standard rig acts).2.1

end Round

end PocketBasic
