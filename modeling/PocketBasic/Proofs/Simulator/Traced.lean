import PocketBasic.Proofs.Dialog.Traced
import PocketBasic.Proofs.Inspector.Traced
import PocketBasic.Proofs.Simulator.Host
import PocketBasic.Proofs.Simulator.Operations

/-! # Control characters in a window

A window passes on what its program says: a request becomes a dialog, a fault a notice, and a complaint its
message. Nothing it does adds a control character to that, or to what is typed and pasted into it.
-/

namespace PocketBasic

variable {given : List Char}

/-! ## The scheduler -/

/-- How the last batch ended, and the answers for the next one. -/
structure Scheduler.Traced (given : List Char) (s : Scheduler) : Prop where
  last : s.last.Traced given
  answers : ∀ values, s.inputState = .ready values → ∀ value ∈ values, value.Traced given

def StepResult.Traced (given : List Char) : StepResult → Prop
  | .awaitingInput request => request.Traced given
  | .failed fault => fault.Traced given
  | _ => True

variable {σ : Type} {Holds : σ → Prop}

structure Bench.Traced (given : List Char) (Holds : σ → Prop) (b : Bench σ) : Prop where
  scheduler : b.scheduler.Traced given
  rig : Holds b.rig

namespace Bench.Traced

variable {b other : Bench σ}

theorem of_same (traced : b.Traced given Holds) (last : other.scheduler.last = b.scheduler.last)
    (state : other.scheduler.inputState = b.scheduler.inputState) (rig : Holds other.rig) :
    other.Traced given Holds := by
  refine ⟨⟨?_, ?_⟩, rig⟩
  · rw [last]
    exact traced.scheduler.last
  · rw [state]
    exact traced.scheduler.answers

theorem schedule (traced : b.Traced given Holds) : b.schedule.Traced given Holds := by
  refine traced.of_same ?_ ?_ ?_
  · rw [scheduler_schedule]
  · rw [scheduler_schedule]
  · rw [rig_schedule]
    exact traced.rig

/-- A bench whose run is over, or goes on without having asked for anything. -/
theorem of_quiet (last : other.scheduler.last = .more ∨ other.scheduler.last = .done)
    (state : other.scheduler.inputState = .idle) (rig : Holds other.rig) : other.Traced given Holds := by
  refine ⟨⟨?_, fun values ready => ?_⟩, rig⟩
  · rcases last with more | done
    · rw [more]
      trivial
    · rw [done]
      trivial
  · rw [state] at ready
    cases ready

theorem pause (traced : b.Traced given Holds) : b.pause.Traced given Holds := by
  refine b.pause_cases ?paused ?ignored
  case paused => exact fun _ => traced.of_same rfl rfl traced.rig
  case ignored => exact fun _ => traced

theorem cont (traced : b.Traced given Holds) : b.cont.Traced given Holds := by
  refine b.cont_cases ?continued ?ignored
  case continued =>
    intro _ _
    exact schedule (b := { b with scheduler.paused := false }) (traced.of_same rfl rfl traced.rig)
  case ignored => exact fun _ => traced

theorem wake (traced : b.Traced given Holds) (generation : Nat) : (b.wake generation).Traced given Holds := by
  have woken : Bench.Traced given Holds { b with scheduler.sleep := none, scheduler.last := .more } :=
    ⟨⟨trivial, traced.scheduler.answers⟩, traced.rig⟩
  refine b.wake_cases generation ?woken ?held ?stale
  case woken => exact fun _ _ _ _ => woken.schedule
  case held => exact fun _ _ _ => woken
  case stale => exact fun _ => traced

variable [Engine σ] [Device σ] (traces : Rig.Traces given Holds)

include traces

theorem releaseAll (traced : b.Traced given Holds) (values : List Answer) :
    (b.releaseAll values).Traced given Holds := by
  refine traced.of_same rfl rfl ?_
  have rig := traced.rig
  rw [rig_releaseAll]
  generalize b.rig = engine at rig
  induction values generalizing engine with
  | nil => exact rig
  | cons value rest ih => exact ih _ (traces.release _ value rig)

theorem runBatch (traced : b.Traced given Holds) {resume : Resume} (answered : resume.Traced given) :
    (b.runBatch resume).Traced given Holds := by
  obtain ⟨outcome, rig⟩ := traces.exec b.rig resume b.scheduler.batchSize traced.rig answered
  rw [runBatch_eq]
  exact schedule ⟨⟨outcome, traced.scheduler.answers⟩, rig⟩

theorem stopBlink (traced : b.Traced given Holds) : b.stopBlink.Traced given Holds := by
  refine traced.of_same ?_ ?_ ?_
  · rw [scheduler_stopBlink]
  · rw [scheduler_stopBlink]
  · rw [rig_stopBlink]
    split
    · exact traces.hideCaret _ traced.rig
    · exact traced.rig

theorem keyDown (traced : b.Traced given Holds) (key : UInt8) : (b.keyDown key).Traced given Holds := by
  have down : Bench.Traced given Holds { b with rig := Device.keyDown b.rig key } :=
    traced.of_same rfl rfl (traces.keyDown _ key traced.rig)
  refine b.keyDown_cases key ?resumed ?buffered
  case resumed => exact fun _ _ _ => down.schedule
  case buffered => exact fun _ => down

theorem keyUp (traced : b.Traced given Holds) (key : UInt8) : (b.keyUp key).Traced given Holds :=
  traced.of_same rfl rfl (traces.keyUp _ key traced.rig)

theorem repaintTick (traced : b.Traced given Holds) : b.repaintTick.2.Traced given Holds := by
  refine traced.of_same ?_ ?_ ?_
  · rw [scheduler_repaintTick]
  · rw [scheduler_repaintTick]
  · rw [rig_repaintTick]
    split
    · exact traces.takeDirty _ traced.rig
    · exact traced.rig

theorem blinkTick (traced : b.Traced given Holds) : b.blinkTick.Traced given Holds := by
  refine traced.of_same ?_ ?_ ?_
  · rw [scheduler_blinkTick]
  · rw [scheduler_blinkTick]
  · rw [rig_blinkTick]
    split
    · exact traces.blink _ traced.rig
    · exact traced.rig

theorem provide (traced : b.Traced given Holds) {values : List Answer}
    (handed : ∀ value ∈ values, value.Traced given) : (b.provide values).Traced given Holds := by
  refine b.provide_cases values ?accepted ?refused
  case accepted =>
    intro _
    refine schedule ⟨⟨traced.scheduler.last, ?_⟩, traced.rig⟩
    rintro _ ⟨⟩
    exact handed
  case refused => exact fun _ => traced.releaseAll traces values

theorem start (traced : b.Traced given Holds) : b.start.Traced given Holds := by
  obtain ⟨repaint, blink, restarted⟩ := b.exists_scheduler_restarted
  have reset := traces.reset _ traced.rig
  rw [start_eq]
  refine schedule (of_quiet (.inl ?_) ?_ ?_)
  · rw [restarted]
  · rw [restarted]
  · rw [rig_restarted]
    refine traces.restart _ ?_
    split
    · exact traces.hideCaret _ reset
    · exact reset

theorem quietened (traced : b.Traced given Holds) : b.quietened.Traced given Holds := by
  have awake : b.cancelSleep.stopRepaint.Traced given Holds := by
    refine traced.of_same ?_ ?_ ?_
    · rw [scheduler_stopRepaint, scheduler_cancelSleep]
    · rw [scheduler_stopRepaint, scheduler_cancelSleep]
    · rw [rig_stopRepaint, rig_cancelSleep]
      exact traced.rig
  exact (awake.stopBlink traces).releaseAll traces _

/-- The engine may complain when it is stopped. -/
theorem stop (traced : b.Traced given Holds) :
    (∀ text, b.stop.1 = some text → Text.Traced given text.toList) ∧ b.stop.2.Traced given Holds := by
  have quiet := traced.quietened traces
  have halted : b.halted.Traced given Holds := of_quiet (.inr rfl) rfl quiet.rig
  rw [stop_eq_ite]
  split
  · exact ⟨nofun, halted⟩
  · obtain ⟨complaint, rig⟩ := traces.stop _ halted.rig
    exact ⟨complaint, of_quiet (.inr rfl) rfl rig⟩

/-- A step asks for what the batch before asked for, and fails as it failed. -/
theorem proceed (traced : b.Traced given Holds) :
    b.proceed.1.Traced given ∧ b.proceed.2.Traced given Holds := by
  have last := traced.scheduler.last
  refine b.proceed_cases (motive := fun result => result.1.Traced given ∧ result.2.Traced given Holds)
    ?done ?more ?sleep ?keyless ?keyed ?asked ?prompting ?answered ?failed
  case done => exact fun _ => ⟨trivial, traced⟩
  case more =>
    have nothing : Resume.Traced given .nothing := trivial
    exact fun _ => ⟨trivial, traced.runBatch traces nothing⟩
  case sleep =>
    intro nanoseconds _
    refine ⟨trivial, b.sleep_cases nanoseconds ?armed ?fresh⟩
    case armed => exact fun _ _ => traced
    case fresh => exact fun _ _ => traced.of_same rfl rfl traced.rig
  case keyless =>
    intro rig _ missed
    have taken := traces.takeKey _ traced.rig
    rw [missed] at taken
    exact ⟨trivial, traced.of_same rfl rfl taken⟩
  case keyed =>
    intro key rig _ found
    have taken := traces.takeKey _ traced.rig
    rw [found] at taken
    have pressed : Resume.Traced given (.key key) := trivial
    have waiting : Bench.Traced given Holds { b with rig } := traced.of_same rfl rfl taken
    exact ⟨trivial, (waiting.stopBlink traces).runBatch traces pressed⟩
  case asked =>
    intro request ended _
    rw [ended] at last
    exact ⟨last, ⟨traced.scheduler.last, nofun⟩, traced.rig⟩
  case prompting => exact fun _ _ _ => ⟨trivial, traced⟩
  case answered =>
    intro request values _ ready
    have answers : Resume.Traced given (.answers values) := traced.scheduler.answers values ready
    have resumed : Bench.Traced given Holds { b with scheduler.inputState := .idle } :=
      ⟨⟨traced.scheduler.last, nofun⟩, traced.rig⟩
    exact ⟨trivial, (resumed.stopBlink traces).runBatch traces answers⟩
  case failed =>
    intro fault ended
    rw [ended] at last
    exact ⟨last, ⟨trivial, traced.scheduler.answers⟩, traced.rig⟩

theorem step (traced : b.Traced given Holds) : b.step.1.Traced given ∧ b.step.2.Traced given Holds := by
  have taken : b.taken.Traced given Holds := traced.of_same rfl rfl traced.rig
  refine b.step_cases (motive := fun result => result.1.Traced given ∧ result.2.Traced given Holds) ?active ?halted
  case active => exact fun _ _ => taken.proceed traces
  case halted => exact fun _ => ⟨trivial, taken⟩

end Bench.Traced

/-! ## The window -/

def Notice.Traced (given : List Char) : Notice → Prop
  | .stop => True
  | .failed fault => fault.Traced given

structure Window.Traced (given : List Char) (Holds : σ → Prop) (w : Window σ) : Prop where
  name : Text.Traced given w.name.toList
  rig : Holds w.rig
  scheduler : w.scheduler.Traced given
  dialog : ∀ d, w.dialog = some d → d.Traced given
  panel : w.panel.Traced given
  message : ∀ text, w.message = some text → Text.Traced given text.toList

/-- A window and the notice that it gives. -/
def Window.Voiced (given : List Char) (Holds : σ → Prop) (result : Option Notice × Window σ × EventLoop SimEvent) :
    Prop :=
  (∀ n, result.1 = some n → n.Traced given) ∧ result.2.1.Traced given Holds

namespace Window

variable {w : Window σ} {loop : EventLoop SimEvent}

theorem traced_opened {name : String} (named : Text.Traced given name.toList) {rig : σ} (holds : Holds rig)
    (settings : SimulatorSettings) : (opened name rig settings).Traced given Holds :=
  ⟨named, holds, ⟨trivial, nofun⟩, nofun, InspectorPanel.traced_empty, nofun⟩

namespace Traced

theorem bench (traced : w.Traced given Holds) (loop : EventLoop SimEvent) : (w.bench loop).Traced given Holds :=
  ⟨traced.scheduler, traced.rig⟩

theorem settle (traced : w.Traced given Holds) {b : Bench σ} (done : b.Traced given Holds) :
    (w.settle b).1.Traced given Holds :=
  ⟨traced.name, done.rig, done.scheduler, traced.dialog, traced.panel, traced.message⟩

theorem withPanel (traced : w.Traced given Holds) {panel : InspectorPanel} (shown : panel.Traced given) :
    Window.Traced given Holds { w with panel } :=
  ⟨traced.name, traced.rig, traced.scheduler, traced.dialog, shown, traced.message⟩

theorem toggleInspector (traced : w.Traced given Holds) : w.toggleInspector.Traced given Holds :=
  traced.withPanel (traced.panel.setFocus _)

theorem blurInspector (traced : w.Traced given Holds) : w.blurInspector.Traced given Holds :=
  traced.withPanel (traced.panel.setFocus _)

theorem paste (traced : w.Traced given Holds) {text : List Char}
    (pasted : Text.Traced given (text.filter fun c => c ≠ '\r' ∧ c ≠ '\n')) :
    (w.paste text).Traced given Holds := by
  refine ⟨traced.name, traced.rig, traced.scheduler, fun d shown => ?_, traced.panel, traced.message⟩
  obtain ⟨before, open', rfl⟩ := Option.map_eq_some_iff.mp shown
  exact (traced.dialog before open').paste pasted

variable [Engine σ] [Device σ] (traces : Rig.Traces given Holds)

include traces

theorem closeDialog (traced : w.Traced given Holds) : w.closeDialog.Traced given Holds := by
  unfold Window.closeDialog
  split
  · rename_i d shown
    have cancelled := (InputDialog.traced_cancel traces traced.rig (traced.dialog d shown)).2.2
    exact ⟨traced.name, cancelled, traced.scheduler, nofun, traced.panel, traced.message⟩
  · exact traced

theorem inspectorEvent (traced : w.Traced given Holds) {input : Input} (typed : Text.Traced given input.typed)
    (bounds : CellRect) : (w.inspectorEvent input bounds).2.Traced given Holds := by
  obtain ⟨panel, rig⟩ := InspectorPanel.traced_handle traces traced.rig traced.panel typed (w.layout bounds).panel
  exact ⟨traced.name, rig, traced.scheduler, traced.dialog, panel, traced.message⟩

theorem dialogEvent (traced : w.Traced given Holds) {input : Input} (typed : Text.Traced given input.typed)
    (bounds : CellRect) : Voiced given Holds (w.dialogEvent input bounds loop) := by
  unfold Window.dialogEvent
  cases shown : w.dialog with
  | none => exact ⟨nofun, traced⟩
  | some d =>
      obtain ⟨outcome, left, rig⟩ :=
        InputDialog.traced_handle traces traced.rig (traced.dialog d shown) typed (dialogRect bounds d)
      dsimp only
      cases handled : d.handle w.rig input (dialogRect bounds d) with
      | mk answer rest =>
          obtain ⟨other, engine⟩ := rest
          rw [handled] at outcome left rig
          have closed : Window.Traced given Holds { w with dialog := none, rig := engine } :=
            ⟨traced.name, rig, traced.scheduler, nofun, traced.panel, traced.message⟩
          cases answer with
          | pending =>
              refine ⟨nofun, traced.name, rig, traced.scheduler, ?_, traced.panel, traced.message⟩
              rintro _ ⟨⟩
              exact left
          | accepted values => exact ⟨nofun, closed.settle ((closed.bench loop).provide traces outcome)⟩
          | cancelled =>
              refine ⟨?_, closed⟩
              rintro _ ⟨⟩
              trivial

theorem pressKey (traced : w.Traced given Holds) (code : UInt8) : (w.pressKey code loop).1.Traced given Holds := by
  refine w.pressKey_cases loop (motive := fun result => result.1.Traced given Holds) code ?down ?halted
  case down => exact fun _ => traced.settle ((traced.bench loop).keyDown traces code)
  case halted => exact traced

theorem keypadEvent (traced : w.Traced given Holds) (input : Input) (bounds : CellRect) :
    (w.keypadEvent input bounds loop).2.1.Traced given Holds := by
  have touched (keypad : KeypadView) : Window.Traced given Holds { w with keypad } :=
    ⟨traced.name, traced.rig, traced.scheduler, traced.dialog, traced.panel, traced.message⟩
  unfold Window.keypadEvent
  dsimp only
  split
  · split
    · exact (touched _).settle (((touched _).bench loop).keyDown traces _)
    · exact touched _
  · exact (touched _).settle (((touched _).bench loop).keyUp traces _)
  · exact touched _

theorem mouseEvent (traced : w.Traced given Holds) {input : Input} (typed : Text.Traced given input.typed)
    (bounds : CellRect) : (w.mouseEvent input bounds loop).2.1.Traced given Holds := by
  cases input with
  | click row col =>
      have edited : (w.inspectorEvent (.click row col) bounds).2.Traced given Holds :=
        traced.inspectorEvent traces typed bounds
      cases inside : (w.layout bounds).panel.contains row col with
      | true =>
          rw [w.mouseEvent_inside loop inside]
          dsimp only
          exact edited
      | false =>
          rw [w.mouseEvent_outside loop inside]
          exact traced.blurInspector.keypadEvent traces _ bounds
  | _ => exact traced.keypadEvent traces _ bounds

omit traces [Engine σ] in
theorem copy (traced : w.Traced given Holds) (area : Option PixelRect) : (w.copy area).Traced given Holds := by
  unfold Window.copy
  split
  · exact ⟨traced.name, traced.rig, traced.scheduler, traced.dialog, traced.panel, traced.message⟩
  · exact traced

theorem copyDirty (traced : w.Traced given Holds) : w.copyDirty.Traced given Holds := by
  have taken : Window.Traced given Holds { w with rig := (Device.takeDirty w.rig).2 } :=
    ⟨traced.name, traces.takeDirty _ traced.rig, traced.scheduler, traced.dialog, traced.panel, traced.message⟩
  exact taken.copy _

theorem follow (traced : w.Traced given Holds) (t : Lifecycle.Transition) :
    (w.follow t loop).1.Traced given Holds := by
  have closed := traced.closeDialog traces
  have renamed (status : RunStatus) : Window.Traced given Holds { w with status } :=
    ⟨traced.name, traced.rig, traced.scheduler, traced.dialog, traced.panel, traced.message⟩
  unfold Window.follow
  split
  · have fresh : Window.Traced given Holds { w.closeDialog with message := none, status := .running } :=
      ⟨closed.name, closed.rig, closed.scheduler, closed.dialog, closed.panel, nofun⟩
    exact fresh.settle ((fresh.bench loop).start traces)
  · exact (renamed .running).settle ((traced.bench loop).cont)
  · exact (renamed .paused).settle ((traced.bench loop).pause)
  · obtain ⟨complaint, stopped⟩ := (closed.bench loop).stop traces
    have settled := closed.settle stopped
    have copied := settled.copyDirty traces
    refine ⟨copied.name, copied.rig, copied.scheduler, copied.dialog, copied.panel, ?_⟩
    dsimp only
    split
    · rename_i text complained
      rintro _ ⟨⟩
      exact (complaint text complained).behind (by decide)
    · exact settled.message

theorem transition (traced : w.Traced given Holds) (t : Lifecycle.Transition) :
    (w.transition t loop).1.Traced given Holds := by
  have followed : (w.follow t loop).1.Traced given Holds := traced.follow traces t
  exact followed.withPanel (followed.panel.setEnabled _ (traces.store _ followed.rig))

omit traces [Engine σ] [Device σ] in
theorem afterStep (traced : w.Traced given Holds) {result : StepResult} (stepped : result.Traced given) :
    (∀ n, (w.afterStep result).1 = some n → n.Traced given) ∧ (w.afterStep result).2.Traced given Holds := by
  cases result with
  | awaitingInput request =>
      refine ⟨nofun, traced.name, traced.rig, traced.scheduler, ?_, traced.panel, traced.message⟩
      rintro _ ⟨⟩
      exact InputDialog.traced_ofRequest stepped
  | finished =>
      refine ⟨?_, traced⟩
      rintro _ ⟨⟩
      trivial
  | failed fault =>
      refine ⟨?_, traced.name, traced.rig, traced.scheduler, traced.dialog, traced.panel, ?_⟩
      · rintro _ ⟨⟩
        exact stepped
      · rintro _ ⟨⟩
        exact Text.traced_of_plain (by decide)
  | _ => exact ⟨nofun, traced⟩

theorem handle (traced : w.Traced given Holds) (event : SimEvent) :
    Voiced given Holds (w.handle event loop) := by
  have bench := traced.bench loop
  cases event with
  | runStep =>
      obtain ⟨result, stepped⟩ := bench.step traces
      exact (traced.settle stepped).afterStep result
  | sleepElapsed generation => exact ⟨nofun, traced.settle (bench.wake generation)⟩
  | repaintTick => exact ⟨nofun, (traced.settle (bench.repaintTick traces)).copy _⟩
  | cursorTick => exact ⟨nofun, traced.settle (bench.blinkTick traces)⟩
  | keyRelease code => exact ⟨nofun, traced.settle (bench.keyUp traces code)⟩

/-! ## Drawing -/

omit traces [Engine σ] [Device σ] in
theorem title (traced : w.Traced given Holds) : Text.Traced given w.title.toList := by
  have label : Text.isPlain w.status.label.toList = true := by
    cases w.status <;> decide
  exact (((traced.name.behind (by decide)).before (by decide)).before label).before (by decide)

omit traces [Engine σ] [Device σ] in
theorem drawStatus (traced : w.Traced given Holds) {s : Screen} (drawn : s.Traced given) (rect : CellRect) :
    (w.drawStatus s rect).Traced given := by
  have blanked : (s.fill rect.y rect.x rect.width 1 ' ' .black .lightGray).Traced given :=
    drawn.fill Text.traced_blank
  unfold Window.drawStatus
  split
  · rename_i text told
    exact blanked.write (traced.message text told)
  · refine blanked.write (Text.traced_of_plain ?_)
    cases w.status <;> decide

omit traces [Engine σ] [Device σ] in
theorem drawDialog (traced : w.Traced given Holds) {s : Screen} (drawn : s.Traced given) (bounds : CellRect) :
    Screen.Traced given (match w.dialog with
      | some d => d.draw s (dialogRect bounds d)
      | none => s) := by
  split
  · rename_i d shown
    exact InputDialog.traced_draw drawn (traced.dialog d shown) _
  · exact drawn

omit traces [Engine σ] in
/-- The picture, the keypad and the frames are no text. -/
theorem draw (traced : w.Traced given Holds) {s : Screen} (drawn : s.Traced given) (bounds : CellRect) :
    (w.draw s bounds).Traced given := by
  unfold Window.draw
  dsimp only
  apply traced.drawDialog
  apply InspectorPanel.traced_draw traced.panel
  apply KeypadView.traced_draw
  apply traced.drawStatus
  apply Display.traced_draw
  apply Screen.Traced.box
  exact (drawn.fill Text.traced_blank).write traced.title

end Traced

end Window

end PocketBasic
