import PocketBasic.Proofs.Engine.Journal
import PocketBasic.Proofs.Program.Twins
import PocketBasic.Proofs.Simulator.History
import PocketBasic.Proofs.Simulator.WindowMap

/-! # A start forgets the run before

A stop leaves a lot behind: variables, an open file, keys that wait, the clock, a step on the loop, timers that
release keys, and the names that have been given out. A start finds all of it. To see that none of it counts,
every restarted host is compared with one that is new in every respect: it is that host later on.
-/

namespace PocketBasic

variable {σ : Type}

/-! ## Journals of twins -/

namespace Call

/-- The entry of a rig whose bodies are named so much later. -/
def renamed (n : Nat) : Call → Call
  | .exec resume outcome => .exec (resume.renamed n) outcome
  | other => other

end Call

/-- The answer without the name of the body. -/
def Answer.unnamed : Answer → Answer
  | .func body => .func { body with id := 0 }
  | other => other

def Resume.unnamed : Resume → Resume
  | .answers values => .answers (values.map .unnamed)
  | other => other

/-- The entry without the names of bodies. -/
def Call.unnamed : Call → Call
  | .exec resume outcome => .exec resume.unnamed outcome
  | other => other

theorem Call.unnamed_renamed (n : Nat) (call : Call) : (call.renamed n).unnamed = call.unnamed := by
  have answer (value : Answer) : (value.renamed n).unnamed = value.unnamed := by
    cases value <;> rfl
  have resumed (resume : Resume) : (resume.renamed n).unnamed = resume.unnamed := by
    cases resume with
    | answers values => simp [Resume.renamed, Resume.unnamed, answer]
    | nothing | key => rfl
  cases call with
  | exec resume outcome => exact congrArg (Call.exec · outcome) (resumed resume)
  | reset | stop | report => rfl

namespace Journal

/-- Journals of rigs that are related, with the same entries but for the names of bodies. -/
structure Alike (n : Nat) (R : σ → σ → Prop) (j twin : Journal σ) : Prop where
  rig : R j.rig twin.rig
  calls : twin.calls = j.calls.map (.renamed n)

theorem twins [Engine σ] [Device σ] {n : Nat} {R : σ → σ → Prop} (twins : Rig.Twins n R) :
    Rig.Twins n (Alike n R) where
  exec like resume budget := by
    obtain ⟨same, ran⟩ := twins.exec like.rig resume budget
    refine ⟨same, ran, ?_⟩
    simp only [Engine.exec, List.map_cons, Call.renamed, like.calls]
    exact congrArg (fun outcome => Call.exec _ outcome :: _) same
  stop like := by
    obtain ⟨same, stopped⟩ := twins.stop like.rig
    exact ⟨same, stopped, congrArg (Call.stop :: ·) like.calls⟩
  reset like := ⟨twins.reset like.rig, congrArg (Call.reset :: ·) like.calls⟩
  compile like units := by
    obtain ⟨same, compiled⟩ := twins.compile like.rig units
    exact ⟨same, compiled, like.calls⟩
  encode like := twins.encode like.rig
  release like value := ⟨twins.release like.rig value, like.calls⟩
  restart like := ⟨twins.restart like.rig, like.calls⟩
  takeKey like := by
    obtain ⟨same, taken⟩ := twins.takeKey like.rig
    exact ⟨same, taken, like.calls⟩
  keyDown like key := ⟨twins.keyDown like.rig key, like.calls⟩
  lifted like key := ⟨twins.lifted like.rig key, like.calls⟩
  lifts like key := ⟨twins.lifts like.rig key, like.calls⟩
  blink like := ⟨twins.blink like.rig, like.calls⟩
  hideCaret like := ⟨twins.hideCaret like.rig, like.calls⟩
  takeDirty like := by
    obtain ⟨same, taken⟩ := twins.takeDirty like.rig
    exact ⟨same, taken, like.calls⟩

end Journal

/-! ## Starting a bench that is spent -/

/-- The scheduler of a program that starts for the first time, when its first step is posted. -/
def Scheduler.begun (settings : SimulatorSettings) : Scheduler :=
  { Scheduler.ofSettings settings with last := .more, running := true, stepPosted := true }

namespace Bench

variable {b : Bench σ} {settings : SimulatorSettings}

/-- What a rig holds is of no account to what is spent. -/
theorem Spent.map {τ : Type} (f : σ → τ) (spent : b.Spent settings) : (b.map f).Spent settings := by
  obtain ⟨⟨⟨numbered, repaint, blink, asleep⟩, posted, repaints, blinks, ⟨awake, sleeping, drained⟩,
    releases⟩, step, unsampled, setup⟩ := spent
  exact ⟨⟨⟨numbered, repaint, blink, asleep⟩, posted, repaints, blinks, ⟨awake, sleeping, drained⟩,
    releases⟩, step, unsampled, setup⟩

/-- Posting a step and sampling the picture do not get in each other's way. -/
theorem schedule_startRepaint (b : Bench σ) : b.startRepaint.schedule = b.schedule.startRepaint := by
  obtain ⟨s, rig, loop⟩ := b
  obtain ⟨_, _, _, _, _, _, _, stepPosted, _, ⟨interval, timer⟩, _⟩ := s
  cases stepPosted <;> cases timer <;> rfl

variable [Engine σ] [Device σ]

/-- The bench of a start before anything is armed or posted. -/
def cleared (b : Bench σ) : Bench σ :=
  let b := { b with rig := Engine.reset b.rig }.stopBlink
  let b := { b with rig := Device.restart b.rig }.cancelSleep
  { b with scheduler :=
      { b.scheduler with last := .more, inputState := .idle, running := true, paused := false } }

theorem start_eq_cleared (b : Bench σ) : b.start = b.cleared.schedule.startRepaint :=
  b.cleared.schedule_startRepaint

theorem scheduler_cleared (b : Bench σ) :
    b.cleared.scheduler =
      { b.scheduler with
        last := .more, inputState := .idle, running := true, paused := false, sleep := none,
        blink := (b.scheduler.blink.stop b.loop).1 } := by
  simp only [cleared, scheduler_cancelSleep, scheduler_stopBlink]

/-- Disarming timers neither posts nor names anything, and takes no time. -/
theorem loop_cleared (b : Bench σ) :
    b.cleared.loop.now = b.loop.now ∧ b.cleared.loop.nextId = b.loop.nextId ∧
      b.cleared.loop.posted = b.loop.posted := by
  have stopped : (b.scheduler.blink.stop b.loop).2.now = b.loop.now ∧
      (b.scheduler.blink.stop b.loop).2.nextId = b.loop.nextId ∧
      (b.scheduler.blink.stop b.loop).2.posted = b.loop.posted := by
    unfold Ticker.stop
    split <;> exact ⟨rfl, rfl, rfl⟩
  have quiet : ({ b with rig := Engine.reset b.rig } : Bench σ).stopBlink.loop =
      (b.scheduler.blink.stop b.loop).2 := loop_stopBlink _
  rw [← quiet] at stopped
  simp only [cleared, cancelSleep]
  split <;> exact stopped

theorem Spent.owned_cleared (spent : b.Spent settings) : b.cleared.Owned [] := by
  have quiet := (spent.toOwned.withRig (Engine.reset b.rig)).stopBlink
  exact (quiet.withRig _).cancelSleep.of_same rfl rfl rfl rfl rfl rfl fun _ => .inl

/-- All that is left is to release keys. -/
theorem Spent.isRelease_of_cleared (spent : b.Spent settings) :
    ∀ timer ∈ b.cleared.loop.timers, timer.event.isRelease = true := by
  intro timer member
  have owned := spent.owned_cleared
  have scheduler := b.scheduler_cleared
  have awake : b.cleared.scheduler.sleep = none := by rw [scheduler]
  have none_named : b.cleared.scheduler.timers = [] := by
    simp [Scheduler.timers, scheduler, Ticker.timers_of_inactive, spent.unsampled]
  have left := owned.perm_timers fun id generation asleep => by cases awake.symm.trans asleep
  rw [none_named, List.nil_append] at left
  obtain ⟨code, release⟩ := owned.releases _
    (left.mem_iff.mp (EventLoop.mem_timersOf.mpr ⟨timer, member, rfl, rfl⟩))
  rw [show timer.event = .keyRelease code from congrArg Prod.snd release]
  rfl

theorem Spent.scheduler_begun (spent : b.Spent settings) (d : Delay)
    (sleeps : d.sleeps = b.scheduler.sleepGeneration) :
    b.cleared.schedule.scheduler = (Scheduler.begun settings).later d := by
  have setup := spent.setup
  have unsampled := spent.unsampled
  rw [scheduler_schedule, scheduler_cleared]
  obtain ⟨s, rig, loop⟩ := b
  obtain ⟨batchSize, minSleep, last, running, paused, sleep, generation, stepPosted, inputState,
    ⟨repaint, sampling⟩, ⟨blink, blinking⟩⟩ := s
  simp only [Scheduler.setup, Scheduler.ofSettings, Ticker.ofInterval, Prod.mk.injEq] at setup
  simp only [Ticker.isActive, Option.isSome_eq_false_iff, Option.isNone_iff_eq_none] at unsampled
  obtain ⟨rfl, rfl, rfl, rfl⟩ := setup
  subst unsampled
  simp only [Scheduler.begun, Scheduler.later, Scheduler.ofSettings, Ticker.ofInterval, InputState.later,
    Ticker.later, Option.map_none, sleeps, Nat.zero_add]
  cases blinking <;> rfl

theorem Spent.loop_begun (spent : b.Spent settings) (d : Delay) (time : d.time = b.loop.now)
    (ids : d.ids = b.loop.nextId) : EventLoop.Later d ⟨0, [.runStep], [], 0⟩ b.cleared.schedule.loop := by
  obtain ⟨now, nextId, posted⟩ := b.loop_cleared
  have still : b.cleared.schedule.loop.now = b.cleared.loop.now := by
    unfold schedule
    split <;> rfl
  refine ⟨?_, ?_, ?_, ?_⟩
  · rw [still, now, Nat.zero_add, time]
  · rw [nextId_schedule, nextId, Nat.zero_add, ids]
  · rw [posted_schedule, posted, spent.step, scheduler_cleared]
    dsimp only
    split <;> rfl
  · rw [timers_schedule, List.filter_eq_nil_iff.mpr]
    · rfl
    · intro timer member
      simp [spent.isRelease_of_cleared timer member]

/-- A bench that is spent starts like a new one, only later. -/
theorem Spent.start (spent : b.Spent settings) {R : σ → σ → Prop} {rig : σ} (bodies : Nat)
    (like : R (Device.restart (Engine.reset rig)) b.restarted.rig) :
    Later ⟨b.loop.now, b.loop.nextId, b.scheduler.sleepGeneration, bodies⟩ R
      (⟨.ofSettings settings, rig, ⟨0, [], [], 0⟩⟩ : Bench σ).start b.start := by
  have new : (⟨.ofSettings settings, rig, ⟨0, [], [], 0⟩⟩ : Bench σ).cleared.schedule =
      ⟨.begun settings, Device.restart (Engine.reset rig), ⟨0, [.runStep], [], 0⟩⟩ := rfl
  rw [show b.restarted.rig = b.cleared.schedule.rig from b.cleared.rig_schedule.symm] at like
  rw [start_eq_cleared, start_eq_cleared, new]
  exact (Later.of_scheduler (spent.scheduler_begun _ rfl) like (spent.loop_begun _ rfl rfl)).startRepaint

end Bench

/-! ## Starting a host whose run is over -/

/-- Of a computer that is reset and switched off and on, the program is left and the count of bodies. -/
theorem Computer.alike_restart (c : Computer) :
    Alike c.nextBody (Device.restart (Engine.reset { Computer.ofProgram c.program with nextBody := 0 }))
      (Device.restart (Engine.reset c)) :=
  ⟨rfl, ⟨[], rfl⟩, (Nat.zero_add _).symm⟩

/-- Windows whose dialogs are closed start alike if their schedulers do. -/
theorem Window.Later.started [Engine σ] [Device σ] {d : Delay} {R : σ → σ → Prop} {w other : Window σ}
    {l m : EventLoop SimEvent} (event : Lifecycle.Event)
    (bench : Bench.Later d R (w.bench l).start (other.bench m).start) (closed : w.dialog = none)
    (closed' : other.dialog = none) (trim : other.trim = w.trim) :
    Behind d R (w.transition ⟨.stopped, .started, event⟩ l)
      (other.transition ⟨.stopped, .started, event⟩ m) := by
  have shut {w : Window σ} (closed : w.dialog = none) : w.closeDialog = w := by
    unfold Window.closeDialog
    rw [closed]
  have size := Prod.mk.inj trim
  simp only [Window.transition, Window.follow, shut closed, shut closed']
  exact ⟨⟨bench.scheduler, bench.like, by simp [Window.settle, closed, closed'], size.1, size.2⟩, bench.loop⟩

namespace Host

/-- A host that is new in every respect: its clock stands at zero, and no name has been given out. -/
def pristine (rig : σ) (settings : SimulatorSettings) : Host σ :=
  ⟨.stopped, .opened "" rig settings, ⟨0, [], [], 0⟩⟩

/-- The host with an empty journal on its rig. -/
def watched (h : Host σ) : Host (Journal σ) := h.map fun rig => ⟨rig, []⟩

theorem map_play {τ : Type} [Engine σ] [Device σ] [Engine τ] [Device τ] {f : σ → τ} (hom : Rig.Hom f)
    (h : Host σ) (script : List Happening) : (h.map f).play script = (h.play script).map f := by
  have events (h : Host σ) (batch : List SimEvent) :
      batch.foldl (fun h event => h.touch (.event event)) (h.map f) =
        (batch.foldl (fun h event => h.touch (.event event)) h).map f :=
    List.foldl_hom (map f) fun h event => h.map_touch hom (.event event)
  have happened (h : Host σ) (happening : Happening) :
      (h.map f).happen happening = (h.happen happening).map f := by
    cases happening with
    | raise event => exact h.map_raise hom event
    | touch a => exact h.map_touch hom a
    | pump => exact events (h.touch .drain) h.loop.drain.1
  exact List.foldl_hom (map f) happened

/-- The journal takes no part in what it is about. -/
theorem watched_play [Engine σ] [Device σ] (h : Host σ) (script : List Happening) :
    ((h.watched.raise .start).play script).map Journal.rig = (h.raise .start).play script := by
  rw [← map_play Journal.hom, ← map_raise Journal.hom]
  rfl

theorem Lived.program {program : List Instruction} {settings : SimulatorSettings} {batch : List SimEvent}
    {h : Host Computer} (lived : Lived (.ofProgram program) settings batch h) :
    h.window.rig.program = program := by
  have along : Rig.Along Computer.program Eq := {
    refl := fun _ => rfl
    trans := Eq.trans
    keeps := ⟨fun _ _ => rfl, fun _ _ => rfl, fun _ _ => rfl⟩
    exec := fun _ _ _ => rfl
    stop := fun _ => rfl
    reset := fun _ => rfl
    restart := fun _ => rfl
    takeKey := fun _ => rfl
    keyDown := fun _ _ => rfl
    keyUp := fun _ _ => rfl
    blink := fun _ => rfl
    hideCaret := fun _ => rfl }
  exact (lived.along along fun _ => rfl).symm

/-- Whatever has been before, a host that is stopped starts like a pristine one, only later. -/
theorem Lived.started {program : List Instruction} {settings : SimulatorSettings} {h : Host Computer}
    (lived : Lived (.ofProgram program) settings [] h) (stopped : h.lifecycle = .stopped) :
    ∃ d : Delay, Later d (Journal.Alike d.bodies (Computer.Alike d.bodies))
      ((pristine ⟨{ Computer.ofProgram program with nextBody := 0 }, []⟩ settings).raise .start)
      (h.watched.raise .start) := by
  cases lived.program
  let new : Journal Computer := ⟨{ Computer.ofProgram h.window.rig.program with nextBody := 0 }, []⟩
  let d : Delay := ⟨h.loop.now, h.loop.nextId, h.window.scheduler.sleepGeneration, h.window.rig.nextBody⟩
  have spent := (lived.spent stopped).map fun rig => (⟨rig, []⟩ : Journal Computer)
  have like : Journal.Alike d.bodies (Computer.Alike d.bodies) (Device.restart (Engine.reset new))
      (h.watched.window.bench h.watched.loop).restarted.rig := by
    rw [Bench.rig_restarted]
    split
    · exact ⟨h.window.rig.alike_restart, rfl⟩
    · exact ⟨h.window.rig.alike_restart, rfl⟩
  have started : h.watched.raise .start = h.watched.moved ⟨.stopped, .started, .start⟩ := by
    unfold Host.raise
    rw [show h.watched.lifecycle = .stopped from stopped]
    rfl
  have closed : h.watched.window.dialog = none := lived.closed stopped
  have trim : h.watched.window.trim = (pristine new settings).window.trim := lived.trim
  obtain ⟨window, loop⟩ := Window.Later.started .start (spent.start d.bodies like) rfl closed trim
  refine ⟨d, ?_⟩
  rw [started]
  exact ⟨rfl, window, loop⟩

/-- How far the program is, what its engine was asked and has answered, the variables and the picture. The names
    of bodies are left out. -/
def seen (h : Host (Journal Computer)) : Lifecycle × List Call × Store × (Nat → Nat → Bool) :=
  (h.lifecycle, h.window.rig.calls.map .unnamed, Engine.store h.window.rig, Device.pixel h.window.rig)

theorem Later.seen {d : Delay} {h other : Host (Journal Computer)}
    (later : h.Later d (Journal.Alike d.bodies (Computer.Alike d.bodies)) other) :
    other.seen = h.seen := by
  have rig := later.window.rig
  have calls : other.window.rig.calls.map Call.unnamed = h.window.rig.calls.map Call.unnamed := by
    rw [rig.calls, List.map_map]
    exact List.map_congr_left fun call _ => call.unnamed_renamed d.bodies
  exact Prod.ext later.lifecycle (Prod.ext calls (Prod.ext rig.rig.store rig.rig.pixel))

/-- Two hosts of one program, each stopped after a history of its own, are started again. As long as the same
    happens to both there is no telling them apart: their engines are asked the same and answer the same, and
    variables and picture are the same all along. The inspector still has the selection and the open arrays of
    the run before, so what is typed into it is left out. -/
theorem restart_forgets {program : List Instruction} {settings : SimulatorSettings}
    {h other : Host Computer} (lived : Lived (.ofProgram program) settings [] h)
    (stopped : h.lifecycle = .stopped) (lived' : Lived (.ofProgram program) settings [] other)
    (stopped' : other.lifecycle = .stopped) (script : List Happening)
    (plain : ∀ happening ∈ script, happening.isPlain = true) :
    ((h.watched.raise .start).play script).seen = ((other.watched.raise .start).play script).seen := by
  obtain ⟨d, started⟩ := lived.started stopped
  obtain ⟨d', started'⟩ := lived'.started stopped'
  have first := Later.play (Journal.twins (Computer.twins d.bodies)) started plain
  have second := Later.play (Journal.twins (Computer.twins d'.bodies)) started' plain
  exact first.seen.trans second.seen.symm

/-- A program that opens a file and waits for a key. One host has never run it. The other was stopped while a
    file was open, a key had ended the wait and another one was in the buffer, so a step is on its loop and two
    keys are still to be released. -/
theorem restart_forgets_interrupted :
    let program : List Instruction :=
      [.act ⟨0, 6⟩ (.openFile "F"), .act ⟨1, 4⟩ (.assign "A%" [] (.integer 5)), .act ⟨2, 5⟩ .inkey,
        .act ⟨3, 8⟩ (.fill ⟨0, 0, 2, 2⟩), .act ⟨4, 8⟩ (.sleep 30), .act ⟨5, 3⟩ .finish]
    let fresh : Host Computer := .opened "fresh" (.ofProgram program) .standard
    let used := fresh.play
      [.raise .start, .pump, .pump, .touch (.press 66), .touch (.press 67), .raise .stop]
    let script : List Happening := [.pump, .pump, .touch (.press 65), .pump, .touch (.advance 60), .pump]
    let run (h : Host Computer) := (h.watched.raise .start).play script
    (run fresh).seen = (run used).seen ∧ used.loop.posted = [.runStep] ∧ used.loop.timers.length = 2 ∧
      used.window.rig.handset.buffer = [66, 67] ∧ (run used).window.rig.calls.length = 3 := by
  intro program fresh used script run
  have opened : Lived (.ofProgram program) .standard [] fresh := .opened "fresh" .empty rfl rfl
  have interrupted : Lived (.ofProgram program) .standard [] used := opened.play (by decide)
  exact ⟨restart_forgets opened rfl interrupted (by decide +kernel) script (by decide), by decide +kernel,
    by decide +kernel, by decide +kernel, by decide +kernel⟩

end Host

end PocketBasic
