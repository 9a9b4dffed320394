import PocketBasic.Proofs.App.FinalResults
import PocketBasic.Proofs.App.Repaned
import PocketBasic.Proofs.Editor.Marks

/-! # Marks in the application

The window runs the program of the lines that are in the pane, and these lines stay while there is a window. So a fault
that the window tells of is on a line of the pane, and with the faults of the text itself every mark is about the line
it is on, whatever happens.
-/

namespace PocketBasic

/-- The computer runs a program of the lines, and the newest entry tells of no fault elsewhere. -/
def Journal.Placed (lines : List (List Char)) (j : Journal Computer) : Prop :=
  (∀ fault, Blamed (Instruction.actionsOf j.rig.program) fault → fault.At lines) ∧ j.rig.Faithful ∧
    ∀ resume fault, j.calls.head? = some (.exec resume (.failed fault)) → fault.At lines

/-- Nothing that is asked of the computer moves it to another program. -/
theorem Journal.along_placed (lines : List (List Char)) :
    Rig.Along (Journal.Placed lines) fun before after => before → after where
  refl _ := id
  trans first second := second ∘ first
  keeps := ⟨fun _ _ => rfl, fun _ _ => rfl, fun _ _ => rfl⟩
  exec j resume budget := by
    rintro ⟨blamed, faithful, -⟩
    obtain ⟨still, failed⟩ := faithful.exec resume budget
    refine ⟨blamed, still, fun resume' fault newest => blamed fault (failed fault ?_)⟩
    exact (Call.exec.inj (Option.some.inj newest)).2
  stop _ placed := ⟨placed.1, nofun, nofun⟩
  reset _ placed := ⟨placed.1, Computer.faithful_reset _, nofun⟩
  restart _ := id
  takeKey _ := id
  keyDown _ _ := id
  keyUp _ _ := id
  blink _ := id
  hideCaret _ := id

namespace Watched

/-- The pane has the lines of a text, its mark is about one of them, and the window runs their program. -/
structure Marked (s : Watched) : Prop where
  text : ∃ text, s.app.editor.lines = Editor.linesOf text
  mark : ∀ mark, s.app.editor.mark = some mark → mark.About s.app.editor.lines
  rig : ∀ w, s.app.window = some w → Journal.Placed s.app.editor.lines ⟨w.rig, s.calls⟩

variable {s : Watched} {w : Window Computer} {begun : Bool}

/-- Where there was no window, there is one on the text in the pane. -/
theorem exists_load_of_closed {a : App} (closed : a.window = none) (stopped : a.lifecycle = .stopped)
    {happening : App.Happening} (shown : (a.happen happening).window = some w) :
    Computer.load a.editor.source = .ok w.rig ∧ (a.happen happening).editor.lines = a.editor.lines := by
  cases happening with
  | input file input =>
      have turn := App.turn_handle (fun _ => stopped) file input
      change App.Turn a (a.inputDeed input) (a.happen (.input file input)) at turn
      generalize a.inputDeed input = deed at turn
      cases turn with
      | kept _ window => cases closed.symm.trans (window.symm.trans shown)
      | hosted before | closed before => cases closed.symm.trans before
      | opened _ loaded took =>
          cases took.window.symm.trans shown
          exact ⟨loaded, took.lines⟩
  | paste text =>
      rw [App.happen, closed] at shown
      cases shown
  | event event =>
      rw [App.happen, App.handleSim, closed] at shown
      cases closed.symm.trans shown
  | drain | advance | draw | flush => cases closed.symm.trans shown
  | fit size =>
      rw [App.happen, App.fit] at shown
      split at shown <;> cases closed.symm.trans shown

namespace Marked

theorem opened (size : Nat × Nat) (settings : SimulatorSettings) (path text : String) (lineNumbers : Bool) :
    Marked ⟨.opened size settings (.ofSource path text lineNumbers), []⟩ :=
  ⟨⟨text, rfl⟩, fun mark shown => (by cases shown), fun w shown => by cases shown⟩

theorem next_pane (marked : s.Marked) (sound : s.Sound begun) (happening : App.Happening) :
    (∃ text, (s.app.happen happening).editor.lines = Editor.linesOf text) ∧
      ∀ mark, (s.app.happen happening).editor.mark = some mark →
        mark.About (s.app.happen happening).editor.lines := by
  obtain ⟨text, lines⟩ := marked.text
  cases App.repaned_happen s.app happening with
  | kept same kept =>
      rw [same]
      refine ⟨⟨text, lines⟩, fun mark shown => ?_⟩
      rcases kept with old | dropped
      · exact marked.mark mark (old.symm.trans shown)
      · cases dropped.symm.trans shown
  | @faulted w event fault open' told same new =>
      rw [same, new]
      refine ⟨⟨text, lines⟩, ?_⟩
      rintro _ ⟨⟩
      obtain ⟨-, running, -, last⟩ := Window.failed_of_handle told
      have stands : Call.Stands s.calls.head? w.scheduler.last := (sound.tells open').going running
      rw [last] at stands
      obtain ⟨resume, newest⟩ := stands.failed
      exact .fault ((marked.rig w open').2.2 resume fault newest)
  | @refused error refused same new =>
      rw [same, new]
      refine ⟨⟨text, lines⟩, ?_⟩
      have unread : Source.read s.app.editor.source.toList = .error error := by
        unfold Computer.load at refused
        cases read : Source.read s.app.editor.source.toList with
        | ok program =>
            rw [read] at refused
            cases refused
        | error other =>
            rw [read] at refused
            cases refused
            rfl
      obtain ⟨line, here, spoken, wrong⟩ := Editor.atFault_of_read lines unread
      rw [Editor.mark_showScriptError here]
      rintro _ ⟨⟩
      exact .scriptError here spoken wrong
  | @reloaded source new dropped =>
      rw [new, dropped]
      exact ⟨⟨source, rfl⟩, nofun⟩

theorem next_rig (marked : s.Marked) (sound : s.Sound begun) (happening : App.Happening)
    (shown : (s.next happening).app.window = some w) :
    Journal.Placed (s.next happening).app.editor.lines ⟨w.rig, (s.next happening).calls⟩ := by
  unfold Watched.next at shown ⊢
  cases before : s.app.window with
  | some old =>
      have placed := marked.rig old before
      have turn := App.turn_happen before happening
      generalize s.app.deed happening = deed at turn
      cases turn with
      | kept _ window _ lines =>
          cases before.symm.trans (window.symm.trans shown)
          dsimp only [callsAfter]
          rw [lines (by rw [before]; rfl)]
          exact placed
      | @hosted _ _ act same took =>
          cases before.symm.trans same
          cases took.window.symm.trans shown
          dsimp only [callsAfter]
          rw [took.lines, ← took_record]
          have along := Journal.along_placed s.app.editor.lines
          exact along.record (fun _ => id) (fun _ _ placed => ⟨placed.1, placed.2.1, nofun⟩)
            (s.app.journaling old s.calls) act placed
      | opened closed => cases closed.symm.trans before
      | closed _ _ window => cases window.symm.trans shown
  | none =>
      have goes := sound.goes
      rw [before] at goes
      obtain ⟨loaded, lines⟩ := exists_load_of_closed before (sound.inStep.idle before) shown
      obtain ⟨text, pane⟩ := marked.text
      obtain ⟨accepted, faithful⟩ := Computer.faithful_of_load loaded
      dsimp only
      rw [lines]
      refine ⟨fun fault blamed => Editor.at_of_blamed pane accepted blamed, faithful, fun resume fault newest => ?_⟩
      have ended : Call.Over s.calls.head? := goes.2.2
      rw [newest] at ended
      cases ended

theorem next (marked : s.Marked) (sound : s.Sound begun) (happening : App.Happening) : (s.next happening).Marked := by
  obtain ⟨text, mark⟩ := marked.next_pane sound happening
  exact ⟨text, mark, fun w shown => marked.next_rig sound happening shown⟩

theorem run (marked : s.Marked) (sound : s.Sound begun) (happenings : List App.Happening) :
    (happenings.foldl Watched.next s).Marked := by
  induction happenings generalizing s begun with
  | nil => exact marked
  | cons happening rest ih =>
      obtain ⟨_, still⟩ := sound.next happening
      exact ih (marked.next sound happening) still

end Marked

end Watched

/-- Whatever happens to an application, its mark is about the line that it is on. -/
theorem App.mark_about (size : Nat × Nat) (settings : SimulatorSettings) (path text : String) (lineNumbers : Bool)
    (happenings : List Happening) {mark : Mark} :
    let a := happenings.foldl App.happen (.opened size settings (.ofSource path text lineNumbers))
    a.editor.mark = some mark → mark.About a.editor.lines := by
  intro a shown
  have fresh := Watched.Marked.opened size settings path text lineNumbers
  have marked := (fresh.run (.opened size settings _) happenings).mark mark
  rw [Watched.app_run] at marked
  exact marked shown

/-- The engine reads from the pane what stands in the file, and the lines it counts are those of the pane. The line of
    a text that cannot be read is the one at fault, and is marked from end to end. A run, whatever is asked of its
    computer, fails on the line of the action that has failed. And whatever happens to an application, its mark is on
    the line that it is about, and stops at one of its characters. -/
theorem App.marks_land_on_lines (path text : String) (lineNumbers : Bool) :
    let pane := Editor.ofSource path text lineNumbers
    Source.read pane.source.toList = Source.read text.toList ∧
    (∀ e, Source.read text.toList = .error e →
      ∃ line, pane.lines[e.line]? = some line ∧ Source.content line ≠ [] ∧ Source.AtFault line e.fault ∧
        (pane.showScriptError e.line e.message).mark = some ⟨⟨e.line, 0, Text.byteLength line⟩, e.message⟩) ∧
    (∀ c, Computer.Reached text c → ∀ resume maxTicks fault, (c.exec resume maxTicks).1 = .failed fault →
      fault.At pane.lines ∧ fault.span.On pane.lines ∧
        ∃ line, pane.lines[fault.span.line]? = some line ∧ fault.span.stop ≤ Text.byteLength line) ∧
    ∀ size settings (happenings : List Happening) mark,
      let a := happenings.foldl App.happen (.opened size settings pane)
      a.editor.mark = some mark → mark.About a.editor.lines ∧ mark.span.On a.editor.lines ∧
        ∃ line, a.editor.lines[mark.span.line]? = some line ∧ mark.span.stop ≤ Text.byteLength line := by
  intro pane
  have shown : pane.lines = Editor.linesOf text := rfl
  refine ⟨Editor.read_source shown, fun e refused => ?_, fun c reached resume maxTicks fault failed => ?_,
    fun size settings happenings mark => ?_⟩
  · rw [← Editor.read_source shown] at refused
    obtain ⟨line, here, spoken, wrong⟩ := Editor.atFault_of_read shown refused
    exact ⟨line, here, spoken, wrong, Editor.mark_showScriptError here⟩
  · have found := Editor.at_of_reached shown reached failed
    exact ⟨found, found.on, found.on.stop_le⟩
  · intro a marked
    have about : mark.About a.editor.lines := App.mark_about size settings path text lineNumbers happenings marked
    exact ⟨about, about.on, about.on.stop_le⟩

/-- Lines of the file end in one carriage return too many, which the pane shows and the engine does not get. The fault
    of the run stops before it, and what cannot be read is marked with it. -/
theorem App.marks_land_on_lines_returns :
    let text := "cls\r\r\n\r\nerror paper\r\r\nwork 1\n\n"
    let pane := Editor.ofSource "demo" text true
    let fault : RunFault := ⟨⟨2, 0, 11⟩, "paper"⟩
    let unread := "cls\nété\r\r\n"
    let e : ScriptError := ⟨1, .unknownInstruction "été"⟩
    let other := Editor.ofSource "demo" unread true
    pane.lines = ["cls\r", "", "error paper\r", "work 1", ""].map String.toList ∧
      (∃ c, Computer.Reached text c ∧ (c.exec .nothing 9).1 = .failed fault) ∧ fault.At pane.lines ∧
      Source.read unread.toList = .error e ∧
      (other.showScriptError e.line e.message).mark = some ⟨⟨1, 0, 6⟩, "unknown instruction: été"⟩ := by
  intro text pane fault unread e other
  obtain ⟨c, reached, failed⟩ : ∃ c, Computer.Reached text c ∧ (c.exec .nothing 9).1 = .failed fault := by
    have failed : (Computer.load text).toOption.map (fun c => (c.exec .nothing 9).1) = some (.failed fault) := by
      decide +kernel
    cases loaded : Computer.load text with
    | error refused =>
        rw [loaded] at failed
        cases failed
    | ok c =>
        rw [loaded] at failed
        exact ⟨c, .loaded loaded, Option.some.inj failed⟩
  have refused : Source.read unread.toList = .error e := by
    have failed : (match Source.read unread.toList with
        | .error other => some other
        | .ok _ => none) = some e := by decide +kernel
    split at failed
    · rename_i read
      rw [read, Option.some.inj failed]
    · cases failed
  obtain ⟨-, -, faults, -⟩ := App.marks_land_on_lines "demo" text true
  obtain ⟨-, errors, -, -⟩ := App.marks_land_on_lines "demo" unread true
  obtain ⟨line, here, -, -, marked⟩ := errors e refused
  have shown : other.lines[e.line]? = some ['é', 't', 'é', '\r'] := by decide +kernel
  cases here.symm.trans shown
  exact ⟨by decide +kernel, ⟨c, reached, failed⟩, (faults c reached .nothing 9 fault failed).1, refused, marked⟩

end PocketBasic
