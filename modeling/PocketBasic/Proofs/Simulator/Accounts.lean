import PocketBasic.Proofs.Dialog.Calls
import PocketBasic.Proofs.Inspector.Accounts
import PocketBasic.Proofs.Simulator.Holdings
import PocketBasic.Proofs.Simulator.InStep

/-! # What a window does with values

The values of an answer pass from the fields of the dialog to the scheduler and from there into a batch. On
the way the dialog may be cancelled, the program stopped and the window closed. The books of a ledger,
together with what the dialog and the scheduler hold, account for every value that a field has obtained;
and nothing is held once the program is stopped.
-/

namespace PocketBasic

namespace Window

section Holding

variable {σ : Type}

/-- The values in the slots of the dialog. -/
def dialogHeld (w : Window σ) : List Answer :=
  match w.dialog with
  | some d => d.session.held
  | none => []

/-- The values that the window holds: in the scheduler and in the dialog. -/
def held (w : Window σ) : List Answer := w.scheduler.held ++ w.dialogHeld

/-- How often a value has been entered or is held. -/
def tally (w : Window (Ledger σ)) (value : Answer) : Nat := w.rig.tally w.held value

/-- The dialog of the window, if there is one, is still being edited. -/
def Editing (w : Window σ) : Prop := ∀ d, w.dialog = some d → d.session.state = .editing

theorem editing_of_closed {w : Window σ} (closed : w.dialog = none) : w.Editing := by
  intro d shown
  rw [closed] at shown
  cases shown

/-- A window whose dialog can be closed without a loss, and whose program can be started without one. -/
structure Orderly (lifecycle : Lifecycle) (w : Window σ) : Prop where
  inStep : ∃ begun, w.InStep lifecycle begun
  editing : w.Editing
  idle : lifecycle = .stopped → w.scheduler.inputState = .idle

theorem orderly_opened (name : String) (rig : σ) (settings : SimulatorSettings) :
    (opened name rig settings).Orderly .stopped :=
  ⟨⟨false, inStep_opened name rig settings⟩, editing_of_closed rfl, fun _ => rfl⟩

/-- Nothing is held while the program is stopped. -/
theorem Orderly.held_stopped {w : Window σ} (orderly : w.Orderly .stopped) : w.held = [] := by
  obtain ⟨begun, inStep⟩ := orderly.inStep
  rw [held, dialogHeld, inStep.closed, Scheduler.held_of_idle (orderly.idle rfl)]
  rfl

variable {w other : Window (Ledger σ)} {loop : EventLoop SimEvent} (value : Answer)

theorem tally_of_same (books : other.rig.books = w.rig.books) (scheduler : other.scheduler = w.scheduler)
    (dialog : other.dialog = w.dialog) : other.tally value = w.tally value := by
  rw [tally, Ledger.tally_of_books _ _ books, held, dialogHeld, scheduler, dialog]
  rfl

/-- The values in the dialog, and those that the scheduler is concerned with. -/
theorem tally_bench (w : Window (Ledger σ)) (loop : EventLoop SimEvent) :
    w.tally value = (w.bench loop).tally value + w.dialogHeld.count value :=
  Ledger.tally_append _ _ _ _

theorem tally_settle {b : Bench (Ledger σ)} (same : b.tally value = (w.bench loop).tally value) :
    (w.settle b).1.tally value = w.tally value := by
  rw [tally_bench value w loop, ← same]
  exact tally_bench value (w.settle b).1 b.loop

/-- What an act that obtains some values makes of a window: they are accounted for, and neither the dialog
    nor the scheduler is left as it could lose a value. -/
structure Balanced (lifecycle : Lifecycle) (w : Window (Ledger σ)) (obtained : List Answer)
    (other : Window (Ledger σ)) : Prop where
  tally : ∀ value, other.tally value = w.tally value + obtained.count value
  editing : other.Editing
  idle : lifecycle = .stopped → other.scheduler.inputState = .idle

variable {lifecycle : Lifecycle}

theorem Balanced.alike {third : Window (Ledger σ)} {values : List Answer}
    (balanced : Balanced lifecycle w values other) (same : other.Alike third) :
    Balanced lifecycle w values third := by
  refine ⟨fun value => ?_, ?_, ?_⟩
  · rw [← balanced.tally value]
    exact tally_of_same value (congrArg Ledger.books same.rig) same.scheduler same.dialog
  · rw [Editing, same.dialog]
    exact balanced.editing
  · rw [same.scheduler]
    exact balanced.idle

namespace Orderly

theorem refl (orderly : w.Orderly lifecycle) : Balanced lifecycle w [] w :=
  ⟨fun _ => rfl, orderly.editing, orderly.idle⟩

/-- What the scheduler does may move values, but not into the dialog or out of it. -/
theorem settle (orderly : w.Orderly lifecycle) {b : Bench (Ledger σ)}
    (tally : ∀ value, b.tally value = (w.bench loop).tally value)
    (inputState : b.scheduler.inputState = w.scheduler.inputState) :
    Balanced lifecycle w [] (w.settle b).1 :=
  ⟨fun value => tally_settle value (tally value), orderly.editing,
    fun stopped => inputState.trans (orderly.idle stopped)⟩

theorem paste (orderly : w.Orderly lifecycle) (text : List Char) :
    Balanced lifecycle w [] (w.paste text) := by
  have dialog : (w.paste text).dialogHeld = w.dialogHeld ∧ (w.paste text).Editing := by
    rw [dialogHeld, dialogHeld, Editing, Window.paste]
    cases shown : w.dialog with
    | none => exact ⟨rfl, fun d shown => by cases shown⟩
    | some d =>
        refine ⟨rfl, fun pasted same => ?_⟩
        cases same
        exact orderly.editing d shown
  refine ⟨fun value => ?_, dialog.2, orderly.idle⟩
  rw [tally, held, dialog.1]
  rfl

end Orderly

end Holding

variable {σ : Type} [Engine σ]

/-! ## Events of the dialog and of the inspector -/

/-- The values that an act obtains. Only the dialog and the inspector convert. -/
def obtained (w : Window σ) : Act → List Answer
  | .dialog input bounds =>
      match w.dialog with
      | some d => d.obtained w.rig input (dialogRect bounds d)
      | none => []
  | .inspector input bounds => w.panel.refused w.rig input (w.layout bounds).panel
  | _ => []

theorem obtained_of_quiet {w : Window σ} {a : Act} (quiet : a.isTyped = false) : w.obtained a = [] := by
  cases a with
  | dialog | inspector => cases quiet
  | _ => rfl

variable {w : Window (Ledger σ)} {loop : EventLoop SimEvent} {lifecycle : Lifecycle}

namespace Orderly

/-- The values of an accepted dialog go to the scheduler, which gives them back if it has not asked. -/
theorem dialogEvent (orderly : w.Orderly lifecycle) (input : Input) (bounds : CellRect) :
    Balanced lifecycle w (w.obtained (.dialog input bounds)) (w.dialogEvent input bounds loop).2.1 := by
  unfold Window.dialogEvent obtained
  cases shown : w.dialog with
  | none => exact orderly.refl
  | some d =>
      have running : lifecycle ≠ .stopped := by
        obtain ⟨begun, inStep⟩ := orderly.inStep
        exact inStep.shown (by rw [shown]; rfl)
      have accounts := InputDialog.tally_handle (orderly.editing d shown) w.rig input (dialogRect bounds d)
      dsimp only at accounts ⊢
      cases handled : d.handle w.rig input (dialogRect bounds d) with
      | mk outcome rest =>
          obtain ⟨later, rig⟩ := rest
          rw [handled] at accounts
          obtain ⟨counts, concluded⟩ := accounts
          -- The values of the outcome and of the slots are what is left of those before.
          have after (value : Answer) :
              w.tally value + (d.obtained w.rig input (dialogRect bounds d)).count value =
                rig.tally w.scheduler.held value + outcome.values.count value +
                  later.session.held.count value := by
            have counted := counts value
            simp only [tally, held, dialogHeld, shown, Ledger.tally, List.count_append] at counted ⊢
            omega
          cases outcome with
          | pending =>
              refine ⟨fun value => ?_, fun still same => ?_, fun stopped => absurd stopped running⟩
              · rw [after value]
                exact rig.tally_append w.scheduler.held value later.session.held
              · cases same
                exact concluded.editing rfl
          | accepted values =>
              let closed : Window (Ledger σ) := { w with dialog := none, rig }
              refine ⟨fun value => ?_, editing_of_closed rfl, fun stopped => absurd stopped running⟩
              rw [after value, concluded.empty DialogOutcome.noConfusion]
              refine (tally_bench value (closed.settle ((closed.bench loop).provide values)).1 loop).trans ?_
              exact (closed.bench loop).tally_provide value values
          | cancelled =>
              refine ⟨fun value => ?_, editing_of_closed rfl, fun stopped => absurd stopped running⟩
              rw [after value, concluded.empty DialogOutcome.noConfusion]
              exact rig.tally_append w.scheduler.held value []

theorem inspectorEvent (orderly : w.Orderly lifecycle) (input : Input) (bounds : CellRect) :
    Balanced lifecycle w (w.obtained (.inspector input bounds)) (w.inspectorEvent input bounds).2 := by
  refine ⟨fun value => ?_, orderly.editing, orderly.idle⟩
  refine (w.panel.tally_handle w.rig w.held value input (w.layout bounds).panel).trans ?_
  simp only [tally, Ledger.tally, obtained, List.count_append]
  omega

end Orderly

/-! ## Transitions -/

section Transitions

variable (value : Answer)

/-- Closing a dialog that is edited gives back what its fields hold. -/
theorem tally_closeDialog (editing : w.Editing) : w.closeDialog.tally value = w.tally value := by
  unfold closeDialog
  split
  · rename_i d shown
    have cancelled := Session.tally_call w.rig value d.session .cancel
    have rejected : (d.session.call w.rig .cancel).1.state = .rejected := by
      simp only [Session.call, Session.cancel, editing d shown]
    -- A session that was cancelled holds nothing any more, so all that it held is in the books.
    rw [Session.held_of_rejected (editing d shown) w.rig .cancel rejected] at cancelled
    have rig : (d.cancel w.rig).2.2 = (d.session.call w.rig .cancel).2 := rfl
    simp only [tally, held, dialogHeld, shown, rig, Session.obtained, Ledger.tally, List.count_append,
      List.count_nil] at cancelled ⊢
    omega
  · rfl

variable [Device σ]

omit [Engine σ] in
theorem tally_copyDirty : w.copyDirty.tally value = w.tally value := by
  refine tally_of_same value ?_ (scheduler_copy _ _) (dialog_copy _ _)
  rw [copyDirty, rig_copy]
  rfl

theorem tally_started (editing : w.Editing) (idle : w.scheduler.inputState = .idle)
    (event : Lifecycle.Event) :
    (w.transition ⟨.stopped, .started, event⟩ loop).1.tally value = w.tally value := by
  have found : (w.closeDialog.bench loop).scheduler.inputState = .idle :=
    (congrArg Scheduler.inputState w.scheduler_closeDialog).trans idle
  rw [← tally_closeDialog value editing]
  exact tally_settle value (Bench.tally_start value found)

theorem tally_paused (event : Lifecycle.Event) :
    (w.transition ⟨.started, .paused, event⟩ loop).1.tally value = w.tally value :=
  tally_settle value (Bench.tally_pause (w.bench loop) value)

theorem tally_continued (event : Lifecycle.Event) :
    (w.transition ⟨.paused, .started, event⟩ loop).1.tally value = w.tally value :=
  tally_settle value (Bench.tally_cont (w.bench loop) value)

/-- A stop gives back what it finds, in the dialog and in the scheduler. -/
theorem tally_stopped (editing : w.Editing) (source : Lifecycle) (event : Lifecycle.Event) :
    (w.transition ⟨source, .stopped, event⟩ loop).1.tally value = w.tally value := by
  let last := (w.closeDialog.settle (w.closeDialog.bench loop).stop.2).1
  have settled : last.tally value = w.closeDialog.tally value :=
    tally_settle value (Bench.tally_stop (w.closeDialog.bench loop) value)
  rw [← tally_closeDialog value editing, ← settled, ← tally_copyDirty (w := last)]
  cases source <;> exact tally_of_same value rfl rfl rfl

omit value

theorem orderly_started (w : Window (Ledger σ)) (loop : EventLoop SimEvent) (event : Lifecycle.Event) :
    (w.transition ⟨.stopped, .started, event⟩ loop).1.Orderly .started :=
  ⟨⟨true, .started w loop event⟩, editing_of_closed w.dialog_closeDialog, Lifecycle.noConfusion⟩

theorem Orderly.paused (orderly : w.Orderly .started) (event : Lifecycle.Event) :
    (w.transition ⟨.started, .paused, event⟩ loop).1.Orderly .paused := by
  obtain ⟨begun, inStep⟩ := orderly.inStep
  exact ⟨⟨begun, inStep.pause event⟩, orderly.editing, Lifecycle.noConfusion⟩

theorem Orderly.continued (orderly : w.Orderly .paused) (event : Lifecycle.Event) :
    (w.transition ⟨.paused, .started, event⟩ loop).1.Orderly .started := by
  obtain ⟨begun, inStep⟩ := orderly.inStep
  exact ⟨⟨begun, inStep.cont event⟩, orderly.editing, Lifecycle.noConfusion⟩

/-- A stop leaves order, whatever it finds. -/
theorem orderly_stopped (w : Window (Ledger σ)) (loop : EventLoop SimEvent) (source : Lifecycle)
    (event : Lifecycle.Event) :
    (w.transition ⟨source, .stopped, event⟩ loop).1.Orderly .stopped := by
  have inStep := InStep.stopped w loop source event
  refine ⟨⟨true, inStep⟩, editing_of_closed inStep.closed, fun _ => ?_⟩
  obtain ⟨repaint, blink, quiet⟩ := (w.closeDialog.bench loop).exists_scheduler_stop
  rw [w.scheduler_stopped, quiet]

end Transitions

/-! ## Events of the loop -/

variable [Device σ]

theorem dialog_handle (w : Window σ) (event : SimEvent) (loop : EventLoop SimEvent) :
    (w.handle event loop).2.1.dialog = w.dialog ∨
      ∃ request, (w.bench loop).step.1 = .awaitingInput request ∧
        (w.handle event loop).2.1.dialog = some (.ofRequest request) := by
  cases event with
  | runStep =>
      simp only [handle]
      cases (w.bench loop).step with
      | mk result b =>
          cases result with
          | awaitingInput request => exact .inr ⟨request, rfl, rfl⟩
          | _ => exact .inl rfl
  | repaintTick => exact .inl (dialog_copy _ _)
  | sleepElapsed | cursorTick | keyRelease => exact .inl rfl

namespace Orderly

/-- A step may open a dialog. There is none before, and the new one holds nothing. -/
theorem handle (orderly : w.Orderly lifecycle) (event : SimEvent) :
    Balanced lifecycle w [] (w.handle event loop).2.1 := by
  have settled := w.bench_handle event loop
  have dialog : (w.handle event loop).2.1.dialogHeld = w.dialogHeld ∧ (w.handle event loop).2.1.Editing := by
    obtain same | ⟨request, asking, opened⟩ := w.dialog_handle event loop
    · rw [dialogHeld, dialogHeld, Editing, same]
      exact ⟨rfl, orderly.editing⟩
    · obtain ⟨begun, inStep⟩ := orderly.inStep
      have idle : w.scheduler.inputState = .idle := (w.bench loop).inputState_of_asking asking
      have closed : w.dialog = none := by
        refine Option.not_isSome_iff_eq_none.mp ?_
        rw [inStep.dialog, Scheduler.isPrompting, idle]
        exact Bool.noConfusion
      rw [dialogHeld, dialogHeld, closed, Editing, opened]
      refine ⟨Session.held_ofRequest request, fun d shown => ?_⟩
      cases shown
      rfl
  refine ⟨fun value => ?_, dialog.2, fun stopped => ?_⟩
  · rw [tally_bench value (w.handle event loop).2.1 (w.handle event loop).2.2, settled, dialog.1,
      Bench.tally_handle, tally_bench value w loop]
    rfl
  · -- An event that was left behind finds a scheduler that is halted, and leaves it as it is.
    obtain ⟨begun, inStep⟩ := orderly.inStep
    have halted : w.scheduler.running = false := by
      rw [inStep.running, stopped]
      rfl
    have same : (w.handle event loop).2.1.scheduler = ((w.bench loop).handle event).scheduler :=
      congrArg Bench.scheduler settled
    rw [same, Bench.inputState_handle_of_halted (b := w.bench loop) halted event]
    exact orderly.idle stopped

theorem perform (orderly : w.Orderly lifecycle) (a : Act) :
    Balanced lifecycle w (w.obtained a) (w.perform loop a).2.1 := by
  refine w.perform_cases loop (motive := fun result => Balanced lifecycle w (w.obtained a) result.2.1) a
    ?event ?dialog ?edited ?down ?up ?pasted ?ignored
  case dialog =>
    intro input bounds same
    subst same
    exact orderly.dialogEvent input bounds
  case edited =>
    intro input bounds same
    subst same
    exact orderly.inspectorEvent input bounds
  all_goals
    intro quiet
    rw [obtained_of_quiet quiet]
  case event => exact fun event => orderly.handle event
  case down =>
    intro other code later settled
    exact (orderly.settle (fun value => (w.bench loop).tally_keyDown value code)
      ((w.bench loop).inputState_keyDown code)).alike settled
  case up =>
    intro other code later settled
    exact (orderly.settle (b := (w.bench loop).keyUp code) (fun _ => rfl) rfl).alike settled
  case pasted => exact fun text => orderly.paste text
  case ignored => exact fun other later same => orderly.refl.alike same

end Orderly

end Window

end PocketBasic
