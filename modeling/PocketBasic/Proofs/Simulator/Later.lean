import PocketBasic.Proofs.Engine.Twins
import PocketBasic.Proofs.EventLoop.Later
import PocketBasic.Proofs.Simulator.Round

/-! # A scheduler later on

The scheduler never looks at the clock, and at the names of its timers and sleeps only to tell them apart.
On twin rigs and on a loop that is later it does the same, and leaves the rigs twins and the loop later.
-/

namespace PocketBasic

def InputState.later (d : Delay) : InputState → InputState
  | .ready values => .ready (values.map (.renamed d.bodies))
  | other => other

/-- The ticker with the name of its timer on a loop that is later. -/
def Ticker.later (d : Delay) (t : Ticker) : Ticker := { t with timer := t.timer.map (· + d.ids) }

/-- The scheduler with the names that are given so much later. -/
def Scheduler.later (d : Delay) (s : Scheduler) : Scheduler :=
  { s with
    sleep := s.sleep.map fun (id, generation) => (id + d.ids, generation + d.sleeps)
    sleepGeneration := s.sleepGeneration + d.sleeps
    inputState := s.inputState.later d
    repaint := s.repaint.later d
    blink := s.blink.later d }

theorem Scheduler.sleep_later (d : Delay) (s : Scheduler) :
    (s.later d).sleep = s.sleep.map fun (id, generation) => (id + d.ids, generation + d.sleeps) := rfl

theorem Scheduler.inputState_later (d : Delay) (s : Scheduler) :
    (s.later d).inputState = s.inputState.later d := rfl

@[simp] theorem Ticker.isActive_later (d : Delay) (t : Ticker) : (t.later d).isActive = t.isActive := by
  simp [isActive, later]

@[simp] theorem Scheduler.isPrompting_later (d : Delay) (s : Scheduler) :
    (s.later d).isPrompting = s.isPrompting := by
  unfold isPrompting
  rw [inputState_later]
  cases s.inputState <;> rfl

variable {d : Delay}

/-! ## Tickers -/

theorem Ticker.start_later {l other : EventLoop SimEvent} (behind : l.Later d other) (t : Ticker)
    (event : SimEvent) (plain : event.later d = event) :
    ((t.later d).start event other).1 = (t.start event l).1.later d ∧
      (t.start event l).2.Later d ((t.later d).start event other).2 := by
  obtain ⟨interval, timer⟩ := t
  cases timer with
  | some id => exact ⟨rfl, behind⟩
  | none =>
      obtain ⟨name, armed⟩ := behind.addTimer interval (some interval) event
      rw [plain] at name armed
      exact ⟨congrArg (fun name => (⟨interval, some name⟩ : Ticker)) name, armed⟩

theorem Ticker.stop_later {l other : EventLoop SimEvent} (behind : l.Later d other) (t : Ticker) :
    ((t.later d).stop other).1 = (t.stop l).1.later d ∧
      (t.stop l).2.Later d ((t.later d).stop other).2 := by
  obtain ⟨interval, timer⟩ := t
  cases timer with
  | some id => exact ⟨rfl, behind.kill id⟩
  | none => exact ⟨rfl, behind⟩

variable {σ : Type} {R : σ → σ → Prop}

/-- The second bench is the first, so much later. -/
inductive Bench.Later (d : Delay) (R : σ → σ → Prop) : Bench σ → Bench σ → Prop where
  | mk {s : Scheduler} {rig twin : σ} {l other : EventLoop SimEvent} (like : R rig twin)
      (behind : l.Later d other) : Later d R ⟨s, rig, l⟩ ⟨s.later d, twin, other⟩

namespace Bench.Later

variable {b c b' c' : Bench σ}

theorem of_scheduler {s moved : Scheduler} (same : moved = s.later d) {rig twin : σ}
    {l other : EventLoop SimEvent} (like : R rig twin) (behind : l.Later d other) :
    Later d R ⟨s, rig, l⟩ ⟨moved, twin, other⟩ := by
  subst same
  exact .mk like behind

theorem like (h : Later d R b c) : R b.rig c.rig := by
  cases h with
  | mk like => exact like

theorem scheduler (h : Later d R b c) : c.scheduler = b.scheduler.later d := by
  cases h with
  | mk => rfl

theorem loop (h : Later d R b c) : b.loop.Later d c.loop := by
  cases h with
  | mk _ behind => exact behind

theorem withRig (h : Later d R b c) {rig twin : σ} (like : R rig twin) :
    Later d R { b with rig } { c with rig := twin } := by
  cases h with
  | mk _ behind => exact .mk like behind

theorem withScheduler (h : Later d R b c) {s moved : Scheduler} (same : moved = s.later d) :
    Later d R { b with scheduler := s } { c with scheduler := moved } := by
  cases h with
  | mk like behind => exact .of_scheduler same like behind

theorem ite {p : Prop} [Decidable p] (yes : Later d R b c) (no : Later d R b' c') :
    Later d R (if p then b else b') (if p then c else c') := by
  split
  · exact yes
  · exact no

/-! ## Timers -/

theorem schedule (h : Later d R b c) : Later d R b.schedule c.schedule := by
  cases h with
  | mk like behind => exact .ite (.mk like behind) (.mk like (behind.post .runStep))

theorem cancelSleep (h : Later d R b c) : Later d R b.cancelSleep c.cancelSleep := by
  cases h with
  | @mk s rig twin l other like behind =>
      unfold Bench.cancelSleep
      dsimp only
      cases asleep : s.sleep with
      | none =>
          rw [Scheduler.sleep_later, asleep]
          exact .mk like behind
      | some timer =>
          rw [Scheduler.sleep_later, asleep]
          exact .mk like (behind.kill timer.1)

theorem startRepaint (h : Later d R b c) : Later d R b.startRepaint c.startRepaint := by
  cases h with
  | @mk s rig twin l other like behind =>
      obtain ⟨same, armed⟩ := s.repaint.start_later behind .repaintTick rfl
      exact .of_scheduler (congrArg (fun repaint => { s.later d with repaint }) same) like armed

theorem stopRepaint (h : Later d R b c) : Later d R b.stopRepaint c.stopRepaint := by
  cases h with
  | @mk s rig twin l other like behind =>
      obtain ⟨same, disarmed⟩ := s.repaint.stop_later behind
      exact .of_scheduler (congrArg (fun repaint => { s.later d with repaint }) same) like disarmed

theorem startBlink (h : Later d R b c) : Later d R b.startBlink c.startBlink := by
  cases h with
  | @mk s rig twin l other like behind =>
      obtain ⟨same, armed⟩ := s.blink.start_later behind .cursorTick rfl
      exact .of_scheduler (congrArg (fun blink => { s.later d with blink }) same) like armed

theorem sleep (h : Later d R b c) (nanoseconds : UInt64) :
    Later d R (b.sleep nanoseconds) (c.sleep nanoseconds) := by
  cases h with
  | @mk s rig twin l other like behind =>
      unfold Bench.sleep
      dsimp only
      cases asleep : s.sleep with
      | some timer =>
          rw [Scheduler.sleep_later, asleep]
          exact .mk like behind
      | none =>
          rw [Scheduler.sleep_later, asleep]
          obtain ⟨name, armed⟩ := behind.addTimer (max (Scheduler.roundToMs nanoseconds) s.minSleep) none
            (.sleepElapsed (s.sleepGeneration + 1))
          have counted : s.sleepGeneration + 1 + d.sleeps = s.sleepGeneration + d.sleeps + 1 := by omega
          simp only [SimEvent.later, counted] at name armed
          refine .of_scheduler ?_ like armed
          simp only [Scheduler.later, EventLoop.singleShot, name, Option.map_some, counted]

/-! ## Between two steps -/

theorem pause (h : Later d R b c) : Later d R b.pause c.pause := by
  cases h with
  | mk like behind => exact .ite (.mk like behind) (.mk like behind)

theorem cont (h : Later d R b c) : Later d R b.cont c.cont := by
  cases h with
  | mk like behind => exact .ite (schedule (.mk like behind)) (.mk like behind)

/-- The sleep of the same number, on either side. -/
theorem wake (h : Later d R b c) (generation : Nat) :
    Later d R (b.wake generation) (c.wake (generation + d.sleeps)) := by
  cases h with
  | @mk s rig twin l other like behind =>
      unfold Bench.wake
      dsimp only
      cases asleep : s.sleep with
      | none =>
          rw [Scheduler.sleep_later, asleep]
          exact .mk like behind
      | some timer =>
          rw [Scheduler.sleep_later, asleep]
          have same : timer.2 + d.sleeps = generation + d.sleeps ↔ timer.2 = generation := by omega
          simp only [Option.map_some, same]
          exact .ite (.ite (schedule (.mk like behind)) (.mk like behind)) (.mk like behind)

section Rig

variable [Engine σ] [Device σ] (twins : Rig.Twins d.bodies R)

include twins

theorem runBatch (h : Later d R b c) (resume : Resume) :
    Later d R (b.runBatch resume) (c.runBatch (resume.renamed d.bodies)) := by
  cases h with
  | @mk s rig twin l other like behind =>
      obtain ⟨same, ran⟩ := twins.exec like resume s.batchSize
      exact schedule (.of_scheduler (congrArg (fun last => { s.later d with last }) same) ran behind)

theorem releaseAll (h : Later d R b c) (values : List Answer) :
    Later d R (b.releaseAll values) (c.releaseAll (values.map (.renamed d.bodies))) := by
  cases h with
  | mk like behind => exact .mk (twins.foldl_release like values) behind

theorem provide (h : Later d R b c) (values : List Answer) :
    Later d R (b.provide values) (c.provide (values.map (.renamed d.bodies))) := by
  have refused := releaseAll twins h values
  cases h with
  | @mk s rig twin l other like behind =>
      unfold Bench.provide
      dsimp only
      rw [Scheduler.isPrompting_later]
      exact .ite (schedule (.mk like behind)) refused

theorem stopBlink (h : Later d R b c) : Later d R b.stopBlink c.stopBlink := by
  cases h with
  | @mk s rig twin l other like behind =>
      obtain ⟨same, disarmed⟩ := s.blink.stop_later behind
      unfold Bench.stopBlink
      dsimp only
      rw [show (s.later d).blink = s.blink.later d from rfl, Ticker.isActive_later]
      exact .ite (.of_scheduler (congrArg (fun blink => { s.later d with blink }) same)
        (twins.hideCaret like) disarmed) (.mk like behind)

theorem keyDown (h : Later d R b c) (key : UInt8) : Later d R (b.keyDown key) (c.keyDown key) := by
  cases h with
  | mk like behind =>
      exact .ite (schedule (.mk (twins.keyDown like key) behind)) (.mk (twins.keyDown like key) behind)

/-- A key may be released on one side alone. -/
theorem lifted (h : Later d R b c) (key : UInt8) : Later d R (b.keyUp key) c := by
  cases h with
  | mk like behind => exact .mk (twins.lifted like key) behind

theorem lifts (h : Later d R b c) (key : UInt8) : Later d R b (c.keyUp key) := by
  cases h with
  | mk like behind => exact .mk (twins.lifts like key) behind

theorem repaintTick (h : Later d R b c) : Echo (Later d R) id b.repaintTick c.repaintTick := by
  cases h with
  | @mk s rig twin l other like behind =>
      obtain ⟨same, taken⟩ := twins.takeDirty like
      unfold Bench.repaintTick
      dsimp only
      rw [show (s.later d).repaint = s.repaint.later d from rfl, Ticker.isActive_later]
      exact .ite ⟨same, .mk taken behind⟩ ⟨rfl, .mk like behind⟩

theorem blinkTick (h : Later d R b c) : Later d R b.blinkTick c.blinkTick := by
  cases h with
  | @mk s rig twin l other like behind =>
      unfold Bench.blinkTick
      dsimp only
      rw [show (s.later d).blink = s.blink.later d from rfl, Ticker.isActive_later]
      exact .ite (.mk (twins.blink like) behind) (.mk like behind)

/-! ## Starting and stopping -/

theorem start (h : Later d R b c) : Later d R b.start c.start := by
  have quiet := stopBlink twins (h.withRig (twins.reset h.like))
  have awake := (quiet.withRig (twins.restart quiet.like)).cancelSleep
  refine schedule (startRepaint (awake.withScheduler ?_))
  rw [awake.scheduler]
  rfl

theorem quietened (h : Later d R b c) : Later d R b.quietened c.quietened := by
  have quiet := stopBlink twins h.cancelSleep.stopRepaint
  have returned := fun values => releaseAll twins quiet values
  unfold Bench.quietened
  dsimp only
  rw [quiet.scheduler, Scheduler.inputState_later]
  cases b.cancelSleep.stopRepaint.stopBlink.scheduler.inputState with
  | idle | prompting => exact returned []
  | ready values => exact returned values

theorem halted (h : Later d R b c) : Later d R b.halted c.halted := by
  have quiet := quietened twins h
  refine quiet.withScheduler ?_
  rw [quiet.scheduler]
  rfl

theorem stop (h : Later d R b c) : Echo (Later d R) id b.stop c.stop := by
  have halted := halted twins h
  obtain ⟨same, stopped⟩ := twins.stop halted.like
  rw [stop_eq_ite, stop_eq_ite, (quietened twins h).scheduler]
  exact .ite ⟨rfl, halted⟩ ⟨same, halted.withRig stopped⟩

/-! ## Steps -/

theorem proceed (h : Later d R b c) : Echo (Later d R) id b.proceed c.proceed := by
  have scheduler := h.scheduler
  have last : c.scheduler.last = b.scheduler.last := by
    rw [scheduler]
    rfl
  have answer : c.scheduler.inputState = b.scheduler.inputState.later d := by
    rw [scheduler]
    rfl
  unfold Bench.proceed
  rw [last, answer]
  cases b.scheduler.last with
  | done => exact ⟨rfl, h⟩
  | more => exact ⟨rfl, runBatch twins h .nothing⟩
  | sleep nanoseconds => exact ⟨rfl, h.sleep nanoseconds⟩
  | key =>
      have taken := twins.takeKey h.like
      dsimp only
      cases first : Device.takeKey b.rig with
      | mk key rig =>
          cases second : Device.takeKey c.rig with
          | mk same twin =>
              rw [first, second] at taken
              obtain ⟨rfl, like⟩ := taken
              cases same with
              | none => exact ⟨rfl, (h.withRig like).startBlink⟩
              | some key => exact ⟨rfl, runBatch twins (stopBlink twins (h.withRig like)) (.key key)⟩
  | input request =>
      cases b.scheduler.inputState with
      | idle =>
          have asked := h.startBlink
          refine ⟨rfl, asked.withScheduler ?_⟩
          rw [asked.scheduler]
          rfl
      | prompting => exact ⟨rfl, h⟩
      | ready values =>
          have taken : Later d R { b with scheduler.inputState := .idle } { c with scheduler.inputState := .idle } := by
            refine h.withScheduler ?_
            rw [scheduler]
            rfl
          exact ⟨rfl, runBatch twins (stopBlink twins taken) (.answers values)⟩
  | failed fault =>
      refine ⟨rfl, h.withScheduler ?_⟩
      rw [scheduler]
      rfl

theorem step (h : Later d R b c) : Echo (Later d R) id b.step c.step := by
  have taken : Later d R b.taken c.taken := by
    refine h.withScheduler ?_
    rw [h.scheduler]
    rfl
  rw [step_eq, step_eq, h.scheduler]
  exact .ite (proceed twins taken) ⟨rfl, taken⟩

end Rig

end Bench.Later

end PocketBasic
