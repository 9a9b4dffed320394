import PocketBasic.Proofs.Engine.Journal
import PocketBasic.Proofs.Simulator.AlongWindow
import PocketBasic.Proofs.Simulator.Coherent
import PocketBasic.Proofs.Simulator.InStep
import PocketBasic.Proofs.Simulator.WindowMap

/-! # The journal of a host

The scheduler asks three things of an engine: to begin a run, to go on with it and to give it up. What it asks
next is decided by how the last batch has ended, which the newest entry of a journal tells as well. So the
journal of a host is orderly, whatever reaches its window; a fault is entered as reported where the host is
given notice of it.
-/

namespace PocketBasic

/-- What the newest entry tells about the outcome that a scheduler goes by while its program runs. -/
inductive Call.Stands : Option Call → Outcome → Prop where
  | begun : Stands (some .reset) .more
  | ran (resume : Resume) (outcome : Outcome) : Stands (some (.exec resume outcome)) outcome
  /-- A sleep that is over. -/
  | woken (resume : Resume) (nanoseconds : UInt64) :
      Stands (some (.exec resume (.sleep nanoseconds))) .more
  | reported (fault : RunFault) : Stands (some (.report fault)) .done

namespace Call.Stands

variable {newest : Option Call} {last : Outcome}

theorem going (stands : Stands newest last) (more : last.isFinal = false) : Going newest := by
  cases stands with
  | begun => exact .begun
  | ran => exact .ran more
  | woken => exact .ran rfl
  | reported => cases more

theorem of_done (stands : Stands newest .done) : Over newest := by
  cases stands with
  | ran resume => exact .done resume
  | reported fault => exact .reported fault

theorem failed {fault : RunFault} (stands : Stands newest (.failed fault)) :
    ∃ resume, newest = some (.exec resume (.failed fault)) := by
  cases stands with
  | ran resume => exact ⟨resume, rfl⟩

/-- A fault stands until it is reported. -/
theorem last_of_failed {resume : Resume} {fault : RunFault}
    (stands : Stands (some (.exec resume (.failed fault))) last) : last = .failed fault := by
  cases stands with
  | ran => rfl

theorem awoken {nanoseconds : UInt64} (stands : Stands newest (.sleep nanoseconds)) :
    Stands newest .more := by
  cases stands with
  | ran resume => exact .woken resume nanoseconds

/-- A run that is not done is stopped, and its engine with it. -/
theorem stop (stands : Stands newest last) (other : last ≠ .done) : Admits newest .stop := by
  cases stands with
  | begun => exact .stop .begun
  | ran resume =>
      cases last with
      | done => exact absurd rfl other
      | failed fault => exact .stopFailed resume fault
      | more | sleep | key | input => exact .stop (.ran rfl)
  | woken => exact .stop (.ran rfl)
  | reported => exact absurd rfl other

end Call.Stands

/-- The scheduler goes by what a journal of so many runs tells. -/
structure Scheduler.Tells (runs : Nat) (s : Scheduler) (calls : List Call) : Prop where
  counted : calls.count .reset = runs
  orderly : Call.Orderly calls
  coherent : s.Coherent
  going : s.running = true → Call.Stands calls.head? s.last
  ended : s.running = false → s.last = .done ∧ Call.Over calls.head?

variable {σ : Type} {runs : Nat}

/-- Enters the fault of a step that has failed. -/
def StepResult.enter (result : StepResult) (j : Journal σ) : Journal σ :=
  match result with
  | .failed fault => j.report fault
  | _ => j

/-- Enters the fault that a notice is about. -/
def Notice.enter (notice : Notice) (j : Journal σ) : Journal σ :=
  match notice with
  | .failed fault => j.report fault
  | .stop => j

namespace Bench

variable {b : Bench (Journal σ)}

/-- The engine is stopped unless its run is over. -/
theorem calls_stop [Engine σ] [Device σ] (b : Bench (Journal σ)) :
    b.stop.2.rig.calls =
      if b.scheduler.last = .done then b.rig.calls else .stop :: b.rig.calls := by
  have calls : b.quietened.rig.calls = b.rig.calls := by
    rw [rig_quietened, Journal.keeps.foldl_release]
    split <;> rfl
  have last : b.quietened.scheduler.last = b.scheduler.last := by
    simp only [quietened, scheduler_releaseAll, scheduler_stopBlink, scheduler_stopRepaint,
      scheduler_cancelSleep]
  rw [stop_eq, ← calls, ← last]
  dsimp only
  split <;> rfl

/-- The scheduler goes by the journal that it acts on. -/
def Tells (runs : Nat) (b : Bench (Journal σ)) : Prop := b.scheduler.Tells runs b.rig.calls

namespace Tells

theorem of_same {other : Bench (Journal σ)} (tells : b.Tells runs) (calls : other.rig.calls = b.rig.calls)
    (coherent : other.scheduler.Coherent) (running : other.scheduler.running = b.scheduler.running)
    (last : other.scheduler.last = b.scheduler.last) : other.Tells runs := by
  unfold Tells
  rw [calls]
  refine ⟨tells.counted, tells.orderly, coherent, fun started => ?_, fun halted => ?_⟩
  · rw [last]
    exact tells.going (running.symm.trans started)
  · rw [last]
    exact tells.ended (running.symm.trans halted)

theorem withRig (tells : b.Tells runs) {rig : Journal σ} (calls : rig.calls = b.rig.calls) :
    Tells runs { b with rig } :=
  tells.of_same calls tells.coherent rfl rfl

theorem schedule (tells : b.Tells runs) : b.schedule.Tells runs := by
  refine tells.of_same (by rw [rig_schedule]) tells.coherent.schedule ?_ ?_
  · rw [scheduler_schedule]
  · rw [scheduler_schedule]

/-! ## Between two steps -/

theorem pause (tells : b.Tells runs) : b.pause.Tells runs := by
  have coherent := tells.coherent.pause
  refine b.pause_cases (motive := fun other => other.scheduler.Coherent → other.Tells runs) ?_ ?_ coherent
  · exact fun _ coherent => tells.of_same rfl coherent rfl rfl
  · exact fun _ _ => tells

theorem cont (tells : b.Tells runs) : b.cont.Tells runs := by
  refine b.cont_cases ?continued ?ignored
  case continued =>
    intro _ _
    have active : Tells runs { b with scheduler.paused := false } :=
      tells.of_same rfl (tells.coherent.of_same rfl rfl rfl) rfl rfl
    exact active.schedule
  case ignored => exact fun _ => tells

/-- The batch before a sleep that is over has asked for it. -/
theorem awoken (tells : b.Tells runs) {timer : TimerId × Nat} (asleep : b.scheduler.sleep = some timer) :
    Tells runs { b with scheduler.sleep := none, scheduler.last := .more } := by
  obtain ⟨nanoseconds, last⟩ := tells.coherent.asleep timer asleep
  refine ⟨tells.counted, tells.orderly, tells.coherent.awoken asleep, fun running => ?_, fun halted => ?_⟩
  · have stands := tells.going running
    rw [last] at stands
    exact stands.awoken
  · have done := (tells.ended halted).1
    rw [last] at done
    cases done

theorem wake (tells : b.Tells runs) (generation : Nat) : (b.wake generation).Tells runs := by
  refine b.wake_cases generation ?woken ?held ?stale
  case woken => exact fun _ asleep _ _ => (tells.awoken asleep).schedule
  case held => exact fun _ asleep _ => tells.awoken asleep
  case stale => exact fun _ => tells

section Engine

variable [Engine σ]

theorem provide (tells : b.Tells runs) (values : List Answer) : (b.provide values).Tells runs := by
  refine b.provide_cases values ?accepted ?refused
  case accepted =>
    intro prompting
    have coherent : Scheduler.Coherent { b.scheduler with inputState := .ready values } := by
      refine ⟨tells.coherent.asleep, fun _ => tells.coherent.asked ?_⟩
      rw [prompting]
      exact InputState.noConfusion
    have ready : Tells runs { b with scheduler.inputState := .ready values } :=
      tells.of_same rfl coherent rfl rfl
    exact ready.schedule
  case refused => exact fun _ => tells.withRig (Journal.keeps.foldl_release values b.rig)

/-- The next batch of a run that can go on. -/
theorem runBatch (tells : b.Tells runs) (running : b.scheduler.running = true)
    (more : b.scheduler.last.isFinal = false) (awake : b.scheduler.sleep = none)
    (idle : b.scheduler.inputState = .idle) (resume : Resume) : (b.runBatch resume).Tells runs := by
  have admitted : Call.Admits b.rig.calls.head?
      (.exec resume (Engine.exec b.rig resume b.scheduler.batchSize).1) :=
    .exec ((tells.going running).going more) _ _
  rw [runBatch_eq]
  have counted : (Call.exec resume (Engine.exec b.rig resume b.scheduler.batchSize).1 ::
      b.rig.calls).count .reset = runs :=
    (List.count_cons_of_ne Call.noConfusion).trans tells.counted
  refine Tells.schedule ⟨counted, ⟨admitted, tells.orderly⟩, .of_idle awake idle, fun _ => .ran resume _,
    fun halted => ?_⟩
  change b.scheduler.running = false at halted
  rw [running] at halted
  cases halted

end Engine

section Device

variable [Device σ]

theorem stopBlink (tells : b.Tells runs) : b.stopBlink.Tells runs := by
  refine tells.of_same ?_ (tells.coherent.of_same ?_ ?_ ?_) ?_ ?_
  · rw [rig_stopBlink]
    split <;> rfl
  all_goals rw [scheduler_stopBlink]

theorem keyDown (tells : b.Tells runs) (key : UInt8) : (b.keyDown key).Tells runs := by
  have pressed : Tells runs { b with rig := Device.keyDown b.rig key } := tells.withRig rfl
  exact b.keyDown_cases key (fun _ _ _ => pressed.schedule) fun _ => pressed

variable [Engine σ]

/-! ## Steps -/

theorem proceed (tells : b.Tells runs) (running : b.scheduler.running = true) :
    Tells runs { b.proceed.2 with rig := b.proceed.1.enter b.proceed.2.rig } := by
  have awake := tells.coherent.awake
  have idle := tells.coherent.idle
  refine b.proceed_cases
    (motive := fun stepped => Tells runs { stepped.2 with rig := stepped.1.enter stepped.2.rig })
    ?done ?more ?sleep ?keyless ?keyed ?asked ?prompting ?answered ?failed
  case done => exact fun _ => tells
  case more =>
    intro last
    exact tells.runBatch running (by rw [last]; rfl) (awake (by simp [last])) (idle (by simp [last])) _
  case sleep =>
    intro nanoseconds last
    have coherent := tells.coherent.sleep nanoseconds last
    refine b.sleep_cases nanoseconds (motive := fun other => other.scheduler.Coherent → other.Tells runs)
      ?_ ?_ coherent
    · exact fun _ _ _ => tells
    · exact fun _ _ coherent => tells.of_same rfl coherent rfl rfl
  case keyless =>
    intro rig _ missed
    have calls : (Device.takeKey b.rig).2.calls = b.rig.calls := rfl
    rw [missed] at calls
    exact tells.of_same calls (tells.coherent.of_same rfl rfl rfl) rfl rfl
  case keyed =>
    intro key rig last taken
    have calls : (Device.takeKey b.rig).2.calls = b.rig.calls := rfl
    rw [taken] at calls
    have handed : Tells runs { b with rig } := tells.withRig calls
    refine handed.stopBlink.runBatch ?_ ?_ ?_ ?_ _
    all_goals rw [scheduler_stopBlink]
    · exact running
    · exact congrArg Outcome.isFinal last
    · exact awake (by simp [last])
    · exact idle (by simp [last])
  case asked =>
    intro request last _
    exact tells.of_same rfl ⟨tells.coherent.asleep, fun _ => ⟨request, last⟩⟩ rfl rfl
  case prompting => exact fun _ _ _ => tells
  case answered =>
    intro request values last _
    have taken : Tells runs { b with scheduler.inputState := .idle } :=
      tells.of_same rfl (.of_idle (awake (by simp [last])) rfl) rfl rfl
    refine taken.stopBlink.runBatch ?_ ?_ ?_ ?_ _
    all_goals rw [scheduler_stopBlink]
    · exact running
    · exact congrArg Outcome.isFinal last
    · exact awake (by simp [last])
  case failed =>
    intro fault last
    have stands := tells.going running
    rw [last] at stands
    obtain ⟨resume, newest⟩ := stands.failed
    have admitted : Call.Admits b.rig.calls.head? (.report fault) := by
      rw [newest]
      exact .report resume fault
    have counted : (Call.report fault :: b.rig.calls).count .reset = runs :=
      (List.count_cons_of_ne Call.noConfusion).trans tells.counted
    refine ⟨counted, ⟨admitted, tells.orderly⟩, .of_idle (awake (by simp [last])) (idle (by simp [last])),
      fun _ => .reported fault, fun halted => ?_⟩
    change b.scheduler.running = false at halted
    rw [running] at halted
    cases halted

theorem step (tells : b.Tells runs) :
    Tells runs { b.step.2 with rig := b.step.1.enter b.step.2.rig } := by
  have taken : b.taken.Tells runs := tells.of_same rfl (tells.coherent.of_same rfl rfl rfl) rfl rfl
  refine b.step_cases
    (motive := fun stepped => Tells runs { stepped.2 with rig := stepped.1.enter stepped.2.rig })
    ?active ?halted
  case active => exact fun running _ => taken.proceed running
  case halted => exact fun _ => taken

/-! ## Starting and stopping -/

/-- A start begins a run where no run is under way. -/
theorem start (tells : b.Tells runs) (halted : b.scheduler.running = false) :
    b.start.Tells (runs + 1) := by
  obtain ⟨repaint, blink, restarted⟩ := b.exists_scheduler_restarted
  have calls : b.restarted.rig.calls = .reset :: b.rig.calls := by
    rw [rig_restarted]
    split <;> rfl
  rw [start_eq]
  refine Tells.schedule ?_
  unfold Tells
  rw [restarted, calls]
  have counted : (Call.reset :: b.rig.calls).count .reset = runs + 1 := by
    rw [List.count_cons_self, tells.counted]
  exact ⟨counted, ⟨.reset (tells.ended halted).2, tells.orderly⟩, .of_idle rfl rfl, fun _ => .begun, nofun⟩

/-- A stop gives the engine up unless its run has ended by itself. -/
theorem stop (tells : b.Tells runs) : b.stop.2.Tells runs := by
  have coherent := Scheduler.Coherent.stop b
  have entered := b.calls_stop
  have running : b.stop.2.scheduler.running = false := by rw [stop_eq]
  have done : b.stop.2.scheduler.last = .done := by rw [stop_eq]
  have never {p : Prop} (started : b.stop.2.scheduler.running = true) : p := by
    rw [running] at started
    cases started
  by_cases ended : b.scheduler.last = .done
  · have quiet : Call.Over b.rig.calls.head? := by
      cases started : b.scheduler.running with
      | false => exact (tells.ended started).2
      | true =>
          have stands := tells.going started
          rw [ended] at stands
          exact stands.of_done
    unfold Tells
    rw [entered, if_pos ended]
    exact ⟨tells.counted, tells.orderly, coherent, never, fun _ => ⟨done, quiet⟩⟩
  · have started : b.scheduler.running = true := by
      cases started : b.scheduler.running with
      | true => rfl
      | false => exact absurd (tells.ended started).1 ended
    unfold Tells
    rw [entered, if_neg ended]
    exact ⟨(List.count_cons_of_ne Call.noConfusion).trans tells.counted,
      ⟨(tells.going started).stop ended, tells.orderly⟩, coherent, never, fun _ => ⟨done, .stopped⟩⟩

end Device

end Tells

end Bench

/-! ## Windows -/

/-- A step that tells of a failure is the one after it. -/
theorem Bench.failed_of_step [Engine σ] [Device σ] (b : Bench σ) {fault : RunFault} :
    b.step.1 = .failed fault →
      b.scheduler.running = true ∧ b.scheduler.paused = false ∧ b.scheduler.last = .failed fault := by
  refine b.step_cases ?active ?halted
  case halted => exact fun _ => nofun
  case active =>
    intro running active
    refine b.taken.proceed_cases ?done ?more ?sleep ?keyless ?keyed ?asked ?prompting ?answered ?failed
    case failed =>
      intro fault' last same
      cases same
      exact ⟨running, active, last⟩
    all_goals
      intros
      contradiction

namespace Window

/-- Only a step gives notice of a failure. -/
theorem failed_of_handle [Engine σ] [Device σ] {w : Window σ} {loop : EventLoop SimEvent}
    {event : SimEvent} {fault : RunFault} (told : (w.handle event loop).1 = some (.failed fault)) :
    event = .runStep ∧ w.scheduler.running = true ∧ w.scheduler.paused = false ∧
      w.scheduler.last = .failed fault := by
  cases event with
  | runStep =>
      have failed : (w.bench loop).step.1 = .failed fault → _ := (w.bench loop).failed_of_step
      simp only [handle] at told
      cases stepped : (w.bench loop).step with
      | mk result b =>
          rw [stepped] at told failed
          cases result with
          | failed fault' =>
              cases told
              exact ⟨rfl, failed rfl⟩
          | idle | stepped | sleeping | waitingForKey | awaitingInput | finished => cases told
  | sleepElapsed | repaintTick | cursorTick | keyRelease => cases told

/-- The step after a failure gives notice of it. -/
theorem handle_failed [Engine σ] [Device σ] (w : Window σ) (loop : EventLoop SimEvent) {fault : RunFault}
    (running : w.scheduler.running = true) (active : w.scheduler.paused = false)
    (last : w.scheduler.last = .failed fault) :
    w.handle .runStep loop =
      (some (.failed fault),
        { (w.settle { (w.bench loop).taken with scheduler.last := .done }).1 with
          message := some failureMessage }, loop) := by
  have stepped : (w.bench loop).step =
      (.failed fault, { (w.bench loop).taken with scheduler.last := .done }) := by
    rw [Bench.step_eq, if_pos (by simp [bench, running, active])]
    unfold Bench.proceed
    rw [show (w.bench loop).taken.scheduler.last = .failed fault from last]
  rw [handle, stepped]
  rfl

variable {w other : Window (Journal σ)} {loop : EventLoop SimEvent}

/-- The scheduler of the window goes by the journal in its rig. -/
def Tells (runs : Nat) (w : Window (Journal σ)) : Prop := w.scheduler.Tells runs w.rig.calls

/-- The journal is told what the window gives notice of. -/
def Entered (runs : Nat) : Option Notice × Window (Journal σ) × EventLoop SimEvent → Prop
  | (none, w, _) => w.Tells runs
  | (some notice, w, _) => Tells runs { w with rig := notice.enter w.rig }

section Stopped

variable [Engine σ]

theorem calls_closeDialog (w : Window (Journal σ)) : w.closeDialog.rig.calls = w.rig.calls := by
  unfold closeDialog
  split
  · exact Journal.keeps.cancelDialog _ w.rig
  · rfl

variable [Device σ]

theorem rig_stopped (w : Window (Journal σ)) (loop : EventLoop SimEvent) (source : Lifecycle)
    (event : Lifecycle.Event) :
    (w.transition ⟨source, .stopped, event⟩ loop).1.rig.calls =
      (w.closeDialog.bench loop).stop.2.rig.calls := by
  have copied (w : Window (Journal σ)) : w.copyDirty.rig.calls = w.rig.calls := by
    unfold copyDirty
    rw [rig_copy]
    rfl
  cases source
  all_goals exact copied _

/-- Nothing more is asked of an engine whose run is over. -/
theorem calls_stopped (done : w.scheduler.last = .done) (source : Lifecycle) (event : Lifecycle.Event) :
    (w.transition ⟨source, .stopped, event⟩ loop).1.rig.calls = w.rig.calls := by
  have last : (w.closeDialog.bench loop).scheduler.last = .done := by
    rw [bench_closeDialog]
    exact done
  rw [rig_stopped, Bench.calls_stop, if_pos last]
  exact w.calls_closeDialog

end Stopped

namespace Tells

theorem withRig (tells : w.Tells runs) (scheduler : other.scheduler = w.scheduler)
    (calls : other.rig.calls = w.rig.calls) : other.Tells runs := by
  unfold Tells
  rw [scheduler, calls]
  exact tells

theorem alike (tells : w.Tells runs) (same : w.Alike other) : other.Tells runs :=
  tells.withRig same.scheduler (by rw [same.rig])

variable [Engine σ]

theorem dialogEvent (tells : w.Tells runs) (input : Input) (bounds : CellRect) :
    Entered runs (w.dialogEvent input bounds loop) := by
  unfold Window.dialogEvent
  split
  · exact tells
  · rename_i d _
    have kept := Journal.keeps.dialog d w.rig input (dialogRect bounds d)
    split
    all_goals
      rename_i handled
      rw [handled] at kept
    · exact tells.withRig rfl kept
    · rename_i values _ rig
      let other : Window (Journal σ) := { w with dialog := none, rig }
      have closed : other.Tells runs := tells.withRig rfl kept
      exact Bench.Tells.provide (b := other.bench loop) closed values
    · exact tells.withRig rfl kept

variable [Device σ]

theorem handle (tells : w.Tells runs) (event : SimEvent) : Entered runs (w.handle event loop) := by
  have bench : (w.bench loop).Tells runs := tells
  cases event with
  | runStep =>
      have stepped := bench.step
      simp only [Window.handle]
      cases step : (w.bench loop).step with
      | mk result b =>
          rw [step] at stepped
          cases result <;> exact stepped
  | sleepElapsed generation => exact bench.wake generation
  | repaintTick =>
      have calls : (w.bench loop).repaintTick.2.rig.calls = w.rig.calls := by
        rw [Bench.rig_repaintTick]
        split <;> rfl
      refine tells.withRig ?_ ?_
      · exact (scheduler_copy _ _).trans (w.bench loop).scheduler_repaintTick
      · rw [rig_copy]
        exact calls
  | cursorTick =>
      have calls : (w.bench loop).blinkTick.rig.calls = w.rig.calls := by
        rw [Bench.rig_blinkTick]
        split <;> rfl
      exact tells.withRig (w.bench loop).scheduler_blinkTick calls
  | keyRelease code => exact tells.withRig rfl rfl

theorem perform (tells : w.Tells runs) (a : Act) : Entered runs (w.perform loop a) := by
  refine w.perform_cases loop (motive := Entered runs) a
    ?event ?dialog ?edited ?down ?up ?pasted ?ignored
  case event => exact fun _ event => tells.handle event
  case dialog => exact fun input bounds _ => tells.dialogEvent input bounds
  case edited =>
    exact fun input bounds _ => tells.withRig rfl (Journal.keeps.inspector w.panel w.rig input _)
  case down =>
    intro _ other code later settled
    have pressed : (w.settle ((w.bench loop).keyDown code)).1.Tells runs :=
      Bench.Tells.keyDown (b := w.bench loop) tells code
    exact pressed.alike settled
  case up =>
    intro _ other code later settled
    have lifted : (w.settle ((w.bench loop).keyUp code)).1.Tells runs := tells.withRig rfl rfl
    exact lifted.alike settled
  case pasted => exact fun _ text => tells.withRig rfl rfl
  case ignored => exact fun _ other later same => tells.alike same

/-! ## Transitions -/

omit [Device σ] in
theorem closeDialog (tells : w.Tells runs) : w.closeDialog.Tells runs :=
  tells.withRig w.scheduler_closeDialog w.calls_closeDialog

theorem started (tells : w.Tells runs) (halted : w.scheduler.running = false) (event : Lifecycle.Event) :
    (w.transition ⟨.stopped, .started, event⟩ loop).1.Tells (runs + 1) := by
  have closed : (w.closeDialog.bench loop).Tells runs := tells.closeDialog
  refine closed.start ?_
  change w.closeDialog.scheduler.running = false
  rw [scheduler_closeDialog, halted]

theorem stopped (tells : w.Tells runs) (source : Lifecycle) (event : Lifecycle.Event) :
    (w.transition ⟨source, .stopped, event⟩ loop).1.Tells runs := by
  have closed : (w.closeDialog.bench loop).Tells runs := tells.closeDialog
  unfold Tells
  rw [scheduler_stopped, rig_stopped]
  exact closed.stop

theorem paused (tells : w.Tells runs) (event : Lifecycle.Event) :
    (w.transition ⟨.started, .paused, event⟩ loop).1.Tells runs := by
  have bench : (w.bench loop).Tells runs := tells
  exact bench.pause

theorem continued (tells : w.Tells runs) (event : Lifecycle.Event) :
    (w.transition ⟨.paused, .started, event⟩ loop).1.Tells runs := by
  have bench : (w.bench loop).Tells runs := tells
  exact bench.cont

end Tells

end Window

/-! ## Hosts -/

namespace Host

variable {h : Host (Journal σ)} {begun : Bool}

/-- The journal of the host is what its window goes by. -/
def Tells (runs : Nat) (h : Host (Journal σ)) : Prop := h.window.Tells runs

/-- The next host still goes by its journal, which has one more run only where the host has started one. -/
inductive Continues (runs : Nat) (h next : Host (Journal σ)) : Prop where
  | same (tells : next.Tells runs)
  | started (before : h.lifecycle = .stopped) (after : next.lifecycle = .started)
      (tells : next.Tells (runs + 1))

/-- Enters what a notice is about. -/
def told (h : Host (Journal σ)) (notice : Notice) : Host (Journal σ) :=
  { h with window.rig := notice.enter h.window.rig }

variable [Engine σ] [Device σ]

/-- Hands an act to the window. What the host is given notice of is entered before it is answered. -/
def watch (h : Host (Journal σ)) (a : Window.Act) : Host (Journal σ) :=
  let (notice, window, loop) := h.window.perform h.loop a
  let h := { h with window, loop }
  match notice with
  | some notice => (h.told notice).raise .stop
  | none => h

/-- What a host does, with the faults entered that it is given notice of. -/
def record (h : Host (Journal σ)) : Act → Host (Journal σ)
  | .raise event => h.raise event
  | .touch a => h.watch a

theorem map_watch (h : Host (Journal σ)) (a : Window.Act) :
    (h.watch a).map Journal.rig = (h.touch a).map Journal.rig := by
  unfold touch watch
  cases h.window.perform h.loop a with
  | mk notice state =>
      cases notice with
      | none => rfl
      | some notice =>
          let after : Host (Journal σ) := { h with window := state.1, loop := state.2 }
          have same : (after.told notice).map Journal.rig = after.map Journal.rig := by
            cases notice <;> rfl
          exact (map_raise Journal.hom (after.told notice) .stop).symm.trans
            ((congrArg (raise · .stop) same).trans (map_raise Journal.hom after .stop))

/-- Keeping the journal changes nothing. -/
theorem map_record (h : Host (Journal σ)) (a : Act) :
    (h.record a).map Journal.rig = (h.map Journal.rig).act a := by
  cases a with
  | raise event => exact (map_raise Journal.hom h event).symm
  | touch a => exact (map_watch h a).trans (map_touch Journal.hom h a).symm

namespace Tells

theorem raise (tells : h.Tells runs) (inStep : h.InStep begun) (event : Lifecycle.Event) :
    Continues runs h (h.raise event) := by
  have window : h.window.Tells runs := tells
  refine raise_cases (motive := Continues runs h) h event ?kept ?started ?paused ?continued ?stopped
  case kept => exact .same tells
  case started =>
    intro stopped
    have halted : h.window.scheduler.running = decide (h.lifecycle ≠ .stopped) := inStep.running
    rw [stopped] at halted
    exact .started stopped rfl (window.started halted event)
  case paused => exact fun _ => .same (window.paused event)
  case continued => exact fun _ => .same (window.continued event)
  case stopped => exact fun _ => .same (window.stopped _ event)

/-- A stop begins no run. -/
theorem raise_stop (tells : h.Tells runs) : (h.raise .stop).Tells runs := by
  by_cases stopped : h.lifecycle = .stopped
  · rw [Host.raise, stopped]
    exact tells
  · have window : h.window.Tells runs := tells
    rw [Host.raise_stop stopped]
    exact window.stopped _ _

theorem watch (tells : h.Tells runs) (a : Window.Act) : (h.watch a).Tells runs := by
  have entered : Window.Entered runs (h.window.perform h.loop a) := Window.Tells.perform tells a
  unfold Host.watch
  cases performed : h.window.perform h.loop a with
  | mk notice state =>
      rw [performed] at entered
      cases notice with
      | none => exact entered
      | some notice =>
          let after : Host (Journal σ) := { h with window := state.1, loop := state.2 }
          have noted : (after.told notice).Tells runs := entered
          exact noted.raise_stop

theorem record (tells : h.Tells runs) (inStep : h.InStep begun) (a : Act) :
    Continues runs h (h.record a) := by
  cases a with
  | raise event => exact tells.raise inStep event
  | touch a => exact .same (tells.watch a)

/-- A host that has been stopped leaves no run behind. -/
theorem run_over (tells : h.Tells runs) (inStep : h.InStep begun) :
    Call.Over (h.raise .stop).window.rig.calls.head? := by
  have running : (h.raise .stop).window.scheduler.running =
      decide ((h.raise .stop).lifecycle ≠ .stopped) := (inStep.raise .stop).running
  rw [lifecycle_raise_stop] at running
  exact (tells.raise_stop.ended running).2

end Tells

/-! ## The step after a failure -/

theorem calls_raise_stop (done : h.window.scheduler.last = .done) :
    (h.raise .stop).window.rig.calls = h.window.rig.calls := by
  by_cases stopped : h.lifecycle = .stopped
  · have ignored : h.raise .stop = h := by
      unfold raise
      rw [stopped]
      rfl
    rw [ignored]
  · rw [raise_stop stopped]
    exact Window.calls_stopped done _ _

/-- The step after a failure reports it, and nothing more is asked of the engine. -/
theorem calls_of_failed {fault : RunFault} (running : h.window.scheduler.running = true)
    (active : h.window.scheduler.paused = false) (last : h.window.scheduler.last = .failed fault) :
    (h.watch (.event .runStep)).window.rig.calls = .report fault :: h.window.rig.calls ∧
      (h.watch (.event .runStep)).lifecycle = .stopped := by
  unfold watch
  rw [Window.perform, h.window.handle_failed h.loop running active last]
  exact ⟨calls_raise_stop rfl, lifecycle_raise_stop _⟩

/-- A step of a paused program is put off. -/
theorem calls_of_paused (paused : h.window.scheduler.paused = true) :
    (h.watch (.event .runStep)).window.rig.calls = h.window.rig.calls ∧
      (h.watch (.event .runStep)).lifecycle = h.lifecycle := by
  let b := h.window.bench h.loop
  have stepped : b.step = (.idle, b.taken) := by
    rw [Bench.step_eq, if_neg (by simp [b, Window.bench, paused])]
  have performed : h.window.perform h.loop (.event .runStep) =
      (none, (h.window.settle b.taken).1, h.loop) := by
    rw [Window.perform, Window.handle, stepped]
    rfl
  unfold watch
  rw [performed]
  exact ⟨rfl, rfl⟩

end Host

/-! ## Along a preorder -/

namespace Rig.Along

variable [Engine σ] [Device σ] {α : Type} {f : Journal σ → α} {R : α → α → Prop} (along : Rig.Along f R)
  (taken : ∀ rig, R (f rig) (f (Device.takeDirty rig).2)) (entered : ∀ j fault, R (f j) (f (Journal.report j fault)))

include along taken entered

theorem watch (h : Host (Journal σ)) (a : Window.Act) : R (f h.window.rig) (f (h.watch a).window.rig) := by
  have performed := along.perform taken h.window h.loop a
  unfold Host.watch
  cases result : h.window.perform h.loop a with
  | mk notice state =>
      rw [result] at performed
      cases notice with
      | none => exact performed
      | some notice =>
          let after : Host (Journal σ) := { h with window := state.1, loop := state.2 }
          have told : R (f state.1.rig) (f (after.told notice).window.rig) := by
            cases notice with
            | stop => exact along.refl _
            | failed fault => exact entered _ fault
          exact along.trans performed (along.trans told (along.raise taken (after.told notice) .stop))

/-- What moves along a preorder with the rig, and when a fault is entered, moves along it with all that the host
    records. -/
theorem record (h : Host (Journal σ)) (a : Host.Act) : R (f h.window.rig) (f (h.record a).window.rig) := by
  cases a with
  | raise event => exact along.raise taken h event
  | touch a => exact along.watch taken entered h a

end Rig.Along

end PocketBasic
