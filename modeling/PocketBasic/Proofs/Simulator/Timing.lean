import PocketBasic.Playback
import PocketBasic.Proofs.Simulator.Stage

/-! # Independence of timing

The outcomes that an engine returns, the keys that are pressed and the answers that are accepted decide
what the batches are resumed with. When a key is pressed, how long a sleep or a pause takes and how often
the loop is pumped decide only how far a run gets. The resumes that are still to come can be computed
from a stage and what the world will bring; together with those that have been they never change.
-/

namespace PocketBasic

/-- What a batch after an outcome is resumed with, and the keys and answers that are left over. Nothing
    if the program has ended, or waits for more than there is. -/
def demand : Outcome → List UInt8 → List (List Answer) →
    Option (Resume × List UInt8 × List (List Answer))
  | .more, keys, answers | .sleep _, keys, answers => some (.nothing, keys, answers)
  | .key, key :: keys, answers => some (.key key, keys, answers)
  | .input _, keys, values :: answers => some (.answers values, keys, answers)
  | _, _, _ => none

/-- What the batches after an outcome are resumed with, if the engine goes on to return `results` and
    nothing ever stands in the way. -/
def resumes (last : Outcome) (results : List Outcome) (keys : List UInt8)
    (answers : List (List Answer)) : List Resume :=
  match demand last keys answers with
  | none => []
  | some (resume, keys, answers) =>
      match results with
      | [] => [resume]
      | outcome :: rest => resume :: resumes outcome rest keys answers

theorem resumes_of_demand {last : Outcome} {keys keys' : List UInt8}
    {answers answers' : List (List Answer)} {resume : Resume}
    (due : demand last keys answers = some (resume, keys', answers')) (results : List Outcome) :
    resumes last results keys answers =
      resume :: match results with
        | [] => []
        | outcome :: rest => resumes outcome rest keys' answers' := by
  cases results with
  | nil => rw [resumes, due]
  | cons outcome rest => rw [resumes, due]

theorem resumes_of_none {last : Outcome} {keys : List UInt8} {answers : List (List Answer)}
    (idle : demand last keys answers = none) (results : List Outcome) :
    resumes last results keys answers = [] := by
  cases results with
  | nil => rw [resumes, idle]
  | cons outcome rest => rw [resumes, idle]

/-- Two outcomes after which the next batch is resumed alike are followed by the same resumes. -/
theorem resumes_congr {last last' : Outcome} {keys : List UInt8} {answers : List (List Answer)}
    (same : demand last keys answers = demand last' keys answers) (results : List Outcome) :
    resumes last results keys answers = resumes last' results keys answers := by
  cases due : demand last' keys answers with
  | none => rw [resumes_of_none (same.trans due), resumes_of_none due]
  | some next => rw [resumes_of_demand (same.trans due), resumes_of_demand due]

namespace Playback

theorem eq_of_missed {rig other : Playback} (missed : Device.takeKey rig = (none, other)) :
    other = rig := by
  simp only [Device.takeKey, PlaybackDevice.takeKey] at missed
  split at missed <;> cases missed
  rfl

theorem keys_taken {rig other : Playback} {key : UInt8}
    (taken : Device.takeKey rig = (some key, other)) :
    other.engine = rig.engine ∧ rig.device.keys = key :: other.device.keys := by
  simp only [Device.takeKey, PlaybackDevice.takeKey] at taken
  split at taken <;> cases taken
  rename_i rest waiting
  exact ⟨rfl, waiting⟩

/-- Nothing beside the run touches the record of the resumes, the outcomes that are left or the queue
    of keys. -/
theorem same_of_aside {rig other : Playback} (aside : Aside rig other) :
    other.engine.execs = rig.engine.execs ∧ other.engine.results = rig.engine.results ∧
      other.device.keys = rig.device.keys := by
  have same := aside.kept
    (f := fun p : Playback => (p.engine.execs, p.engine.results, p.device.keys))
    (fun _ _ => rfl) (fun _ => rfl) (fun _ => rfl) (fun _ => rfl)
    (fun _ _ missed => by rw [eq_of_missed missed]) (fun _ _ => rfl) (fun _ => rfl)
  simpa only [Prod.mk.injEq] using same

end Playback

namespace Stage

/-- The resumes that have been and those that are still to come. -/
def whole (s : Stage Playback) (keys : List UInt8) (answers : List (List Answer)) : List Resume :=
  s.rig.engine.execs ++
    resumes s.last s.rig.engine.results (s.rig.device.keys ++ keys) (s.inputState.held ++ answers)

/-- What the scheduler resumes a batch with is the first resume that was still to come. -/
theorem demand_of_due {s : Stage Playback}
    (idle : (∀ request, s.last ≠ .input request) → s.inputState = .idle) {resume : Resume}
    {rig : Playback} (due : s.Due resume rig) (keys : List UInt8) (answers : List (List Answer)) :
    rig.engine = s.rig.engine ∧
      demand s.last (s.rig.device.keys ++ keys) (s.inputState.held ++ answers) =
        some (resume, rig.device.keys ++ keys, answers) := by
  cases due with
  | more last =>
      rw [idle (by simp [last]), last]
      exact ⟨rfl, rfl⟩
  | key last taken =>
      obtain ⟨engine, waiting⟩ := Playback.keys_taken taken
      rw [idle (by simp [last]), last, waiting]
      exact ⟨engine, rfl⟩
  | answers last ready =>
      rw [ready, last]
      exact ⟨rfl, rfl⟩

/-- A batch moves that resume to those that have been. -/
theorem whole_ran {s : Stage Playback} {rig : Playback} {resume : Resume} {keys : List UInt8}
    {answers : List (List Answer)} (execs : rig.engine.execs = s.rig.engine.execs)
    (results : rig.engine.results = s.rig.engine.results)
    (due : demand s.last (s.rig.device.keys ++ keys) (s.inputState.held ++ answers) =
      some (resume, rig.device.keys ++ keys, answers)) (budget : Nat) :
    (s.ran rig resume budget).whole keys answers = s.whole keys answers := by
  rw [whole, whole, resumes_of_demand due, ← execs, ← results]
  simp only [ran, Engine.exec, PlaybackEngine.exec]
  cases rig.engine.results with
  | nil =>
      have ended : demand .done (rig.device.keys ++ keys) (InputState.idle.held ++ answers) = none :=
        rfl
      rw [resumes_of_none ended, List.append_nil]
  | cons outcome rest =>
      simp only [InputState.held, List.nil_append, List.append_assoc, List.singleton_append]

theorem whole_last {s : Stage Playback} {last : Outcome} {keys : List UInt8}
    {answers : List (List Answer)}
    (same : ∀ keys answers, demand last keys answers = demand s.last keys answers) :
    Stage.whole { s with last } keys answers = s.whole keys answers := by
  simp only [whole]
  rw [resumes_congr (same _ _)]

/-- No step changes the resumes of a run as a whole, once the keys and the answers that it brings are
    counted in. -/
theorem whole_step {s other : Stage Playback}
    (idle : (∀ request, s.last ≠ .input request) → s.inputState = .idle) {pressed : List UInt8}
    {accepted : List (List Answer)} (step : Step pressed accepted s other) (keys : List UInt8)
    (answers : List (List Answer)) :
    other.whole keys answers = s.whole (pressed ++ keys) (accepted ++ answers) := by
  cases step with
  | aside aside =>
      obtain ⟨execs, results, waiting⟩ := Playback.same_of_aside aside
      simp only [whole, execs, results, waiting, List.nil_append]
  | pressed _ key =>
      have queued : (Device.keyDown s.rig key).device.keys = s.rig.device.keys ++ [key] := rfl
      simp only [whole, queued, List.append_assoc, List.nil_append]
      rfl
  | woken last =>
      refine whole_last fun keys answers => ?_
      rw [last]
      rfl
  | asked _ _ still =>
      simp only [whole, still, InputState.held, List.nil_append]
  | answered values prompting =>
      simp only [whole, prompting, InputState.held, List.nil_append]
  | ran budget _ due aside =>
      obtain ⟨engine, due⟩ := demand_of_due idle due keys answers
      obtain ⟨execs, results, waiting⟩ := Playback.same_of_aside aside
      rw [← waiting] at due
      rw [engine] at execs results
      exact whole_ran execs results due budget
  | failed last =>
      refine whole_last fun keys answers => ?_
      rw [last]
      rfl

end Stage

namespace Round

/-- The keys that moves press, in order. -/
def pressed (ms : List Move) : List UInt8 := ms.flatMap Move.keys

/-- The answers that moves get accepted, in order. -/
def accepted (r : Round Playback) : List Move → List (List Answer)
  | [] => []
  | m :: ms => r.accepts m ++ (r.move m).accepted ms

/-- What the batches of a run are resumed with when it is started and moves are made. -/
def trace (r : Round Playback) (ms : List Move) : List Resume :=
  ((r.act .start).moves ms).bench.rig.engine.execs.drop r.bench.rig.engine.execs.length

theorem whole_moves {r : Round Playback} (coherent : r.bench.scheduler.Coherent) (ms : List Move)
    (keys : List UInt8) (answers : List (List Answer)) :
    (r.moves ms).bench.stage.whole keys answers =
      r.bench.stage.whole (pressed ms ++ keys) (r.accepted ms ++ answers) := by
  induction ms generalizing r with
  | nil => rfl
  | cons m ms ih =>
      have step := Stage.whole_step coherent.idle (steps_move coherent m)
      calc (r.moves (m :: ms)).bench.stage.whole keys answers
        _ = ((r.move m).moves ms).bench.stage.whole keys answers := rfl
        _ = (r.move m).bench.stage.whole (pressed ms ++ keys) ((r.move m).accepted ms ++ answers) :=
          ih (coherent.move m)
        _ = r.bench.stage.whole (m.keys ++ (pressed ms ++ keys))
              (r.accepts m ++ ((r.move m).accepted ms ++ answers)) := step _ _
        _ = r.bench.stage.whole (pressed (m :: ms) ++ keys) (r.accepted (m :: ms) ++ answers) := by
          simp only [pressed, List.flatMap_cons, accepted, List.append_assoc]

theorem whole_start (r : Round Playback) (keys : List UInt8) (answers : List (List Answer)) :
    (r.act .start).bench.stage.whole keys answers =
      r.bench.rig.engine.execs ++ resumes .more r.bench.rig.engine.results keys answers := by
  obtain ⟨rig, aside, started⟩ := r.bench.stage_start
  obtain ⟨execs, results, _⟩ := Playback.same_of_aside aside
  have restarted : (Device.restart rig).device.keys = [] := rfl
  have execs : (Device.restart rig).engine.execs = r.bench.rig.engine.execs := execs
  have results : (Device.restart rig).engine.results = r.bench.rig.engine.results := results
  simp only [act, started, Stage.whole, InputState.held, restarted, execs, results,
    List.nil_append]

/-- A run gets some way along the resumes that its outcomes, keys and answers ask for. -/
theorem trace_isPrefix (r : Round Playback) (ms : List Move) :
    r.trace ms <+:
      resumes .more r.bench.rig.engine.results (pressed ms) ((r.act .start).accepted ms) := by
  have coherent : (r.act .start).bench.scheduler.Coherent := .start r.bench
  -- After the last move nothing more is brought, so what has been is a part of the whole.
  have whole := whole_moves coherent ms [] []
  rw [whole_start, List.append_nil, List.append_nil] at whole
  have dropped := congrArg (List.drop r.bench.rig.engine.execs.length) whole
  rw [List.drop_left, Stage.whole, List.drop_append] at dropped
  rw [← dropped]
  exact List.prefix_append _ _

/-- Two runs whose engines return the same outcomes and that are given the same keys and answers resume
    their batches alike, as far as both of them get, whenever anything happens in either. -/
theorem traces_agree (r₁ r₂ : Round Playback) (ms₁ ms₂ : List Move)
    (results : r₁.bench.rig.engine.results = r₂.bench.rig.engine.results)
    (keys : pressed ms₁ = pressed ms₂)
    (answers : (r₁.act .start).accepted ms₁ = (r₂.act .start).accepted ms₂) :
    r₁.trace ms₁ <+: r₂.trace ms₂ ∨ r₂.trace ms₂ <+: r₁.trace ms₁ := by
  have first := r₁.trace_isPrefix ms₁
  have second := r₂.trace_isPrefix ms₂
  rw [results, keys, answers] at first
  exact List.prefix_or_prefix_of_prefix first second

/-- A key that is pressed before the program sleeps, and one that ends its wait after a sleep that was
    over while the program was paused. -/
theorem traces_agree_early_late :
    let r : Round Playback := fresh .standard ⟨.ofResults [.sleep 5000000, .key], .ofLit []⟩
    let early : List Move := [.press 65, .stray .runStep, .stray .runStep, .pause]
    let late : List Move :=
      [.stray .runStep, .stray .runStep, .pause, .advance 100, .stray (.sleepElapsed 1), .cont,
        .stray .runStep, .stray .runStep, .press 65, .stray .runStep]
    (pressed early = pressed late ∧
      (r.act .start).accepted early = (r.act .start).accepted late) ∧
      r.trace early = [.nothing] ∧ r.trace late = [.nothing, .nothing, .key 65] ∧
      (r.trace early <+: r.trace late ∨ r.trace late <+: r.trace early) := by
  intro r early late
  have answers : (r.act .start).accepted early = (r.act .start).accepted late := by decide +kernel
  have agree := traces_agree r r early late rfl rfl answers
  exact ⟨⟨rfl, answers⟩, by decide +kernel, by decide +kernel, agree⟩

end Round

end PocketBasic
