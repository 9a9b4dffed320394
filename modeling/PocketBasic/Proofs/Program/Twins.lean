import PocketBasic.Program.Computer
import PocketBasic.Proofs.Engine.Twins
import PocketBasic.Proofs.Program.Steps

/-! # Computers that differ in the keys held down and in the names of bodies

A program reads its keys from the buffer, never from the keypad, and it stores no body of a function. So a
batch comes to the same on two computers that differ in nothing else, and leaves them so.
-/

namespace PocketBasic

/-! ## Keys that are held down -/

namespace Handset

/-- The handset with other keys held down. -/
def holding (pressed : List UInt8) (h : Handset) : Handset := { h with pressed }

variable (pressed : List UInt8) (h : Handset)

theorem holding_markDirty (area : PixelRect) :
    (h.holding pressed).markDirty area = (h.markDirty area).holding pressed := by
  unfold markDirty
  split <;> rfl

theorem holding_write (area : PixelRect) (f : Bool → Bool) :
    (h.holding pressed).write area f = (h.write area f).holding pressed :=
  holding_markDirty pressed { h with bitmap := h.bitmap.mapArea area fun _ _ lit => f lit } area

theorem holding_hideCaret : (h.holding pressed).hideCaret = h.hideCaret.holding pressed := by
  unfold hideCaret
  rw [apply_ite (holding pressed), show (h.holding pressed).caretRect = h.caretRect from rfl,
    holding_write]
  rfl

theorem holding_blink : (h.holding pressed).blink = h.blink.holding pressed := by
  unfold blink
  rw [show (h.holding pressed).caretRect = h.caretRect from rfl, holding_write]
  rfl

theorem holding_clearScreen : (h.holding pressed).clearScreen = h.clearScreen.holding pressed :=
  holding_markDirty pressed { h with caretShown := false, bitmap := .blank } .fullScreen

theorem holding_fill (area : PixelRect) :
    (h.holding pressed).fill area = (h.fill area).holding pressed := by
  rw [fill, fill, holding_hideCaret, holding_write]

theorem holding_clear (area : PixelRect) :
    (h.holding pressed).clear area = (h.clear area).holding pressed := by
  rw [clear, clear, holding_hideCaret, holding_write]

theorem holding_invert (area : PixelRect) :
    (h.holding pressed).invert area = (h.invert area).holding pressed := by
  rw [invert, invert, holding_hideCaret, holding_write]

theorem holding_setCursor (x y : Nat) :
    (h.holding pressed).setCursor x y = (h.setCursor x y).holding pressed := by
  rw [setCursor, setCursor, holding_hideCaret]
  rfl

theorem holding_takeKey :
    (h.holding pressed).takeKey = Prod.map id (holding pressed) h.takeKey := by
  unfold takeKey
  rw [show (h.holding pressed).buffer = h.buffer from rfl]
  cases h.buffer with
  | nil => rfl
  | cons key rest => exact congrArg (Prod.mk (some key)) (holding_hideCaret pressed { h with buffer := rest })

/-- A key goes into the buffer whatever else is held down. -/
theorem exists_holding_keyDown (key : UInt8) :
    ∃ held, (h.holding pressed).keyDown key = (h.keyDown key).holding held :=
  ⟨_, rfl⟩

end Handset

/-! ## Batches -/

/-- The world with other keys held down. -/
def World.holding (pressed : List UInt8) (w : World) : World :=
  { w with handset := w.handset.holding pressed }

/-- A body stores nothing, so its name is of no account. -/
theorem World.storeAnswers_renamed (n : Nat) (store : Store) (values : List Answer)
    (targets : List (Option String)) :
    storeAnswers store (values.map (.renamed n)) targets = storeAnswers store values targets := by
  have stored (value : Answer) : answerValue? (value.renamed n) = answerValue? value := by
    cases value <;> rfl
  induction values generalizing store targets with
  | nil => rfl
  | cons value rest ih =>
      cases targets with
      | nil => rfl
      | cons target targets => simp only [List.map_cons, storeAnswers, stored, ih]

namespace Step

variable (pressed : List UInt8) (n : Nat) (w : World)

theorem holding_ofAction (origin : Origin) (jobs : List Job) (action : Action) :
    ofAction (w.holding pressed) origin jobs action =
      Prod.map id (World.holding pressed) (ofAction w origin jobs action) := by
  have drawn {first second : Handset} (same : first = second.holding pressed) :
      (Step.tick jobs, ({ w.holding pressed with handset := first } : World)) =
        Prod.map id (World.holding pressed) (.tick jobs, { w with handset := second }) := by
    rw [same]
    rfl
  cases action with
  | clearScreen => exact drawn (w.handset.holding_clearScreen pressed)
  | fill area => exact drawn (w.handset.holding_fill pressed area)
  | clear area => exact drawn (w.handset.holding_clear pressed area)
  | invert area => exact drawn (w.handset.holding_invert pressed area)
  | moveCursor x y =>
      have value (operand : Operand) : (w.holding pressed).operandValue operand = w.operandValue operand :=
        rfl
      simp only [ofAction, value]
      split
      · rfl
      · split
        · rfl
        · exact drawn (w.handset.holding_setCursor pressed _ _)
  | work | sleep | inkey | input | fail | finish => rfl
  | assign name subs value =>
      simp only [ofAction, show (w.holding pressed).store = w.store from rfl]
      split <;> rfl
  | dim name dims =>
      simp only [ofAction, show (w.holding pressed).store = w.store from rfl]
      split <;> rfl
  | openFile | closeFile =>
      simp only [ofAction, show (w.holding pressed).openFile = w.openFile from rfl]
      split <;> rfl

theorem holding_ofAnswers (origin : Origin) (request : Request) (targets : List (Option String))
    (jobs : List Job) (resume : Resume) :
    ofAnswers (w.holding pressed) origin request targets jobs (resume.renamed n) =
      Prod.map id (World.holding pressed) (ofAnswers w origin request targets jobs resume) := by
  cases resume with
  | nothing | key => rfl
  | answers values =>
      simp only [ofAnswers, Resume.renamed, List.length_map, World.storeAnswers_renamed]
      split
      · cases stored : World.storeAnswers w.store values targets with
        | mk error store =>
            rw [show (w.holding pressed).store = w.store from rfl, stored]
            cases error <;> rfl
      · rfl

theorem holding_next (resume : Resume) (jobs : List Job) :
    next (w.holding pressed) (resume.renamed n) jobs =
      Prod.map id (World.holding pressed) (next w resume jobs) := by
  refine next_cases w resume jobs
    (motive := fun jobs stepped => next (w.holding pressed) (resume.renamed n) jobs =
      Prod.map id (World.holding pressed) stepped)
    ?done ?through ?acted ?entered ?passed ?worked ?ticked ?keyed ?keyless ?answered
  case through | worked =>
    intro jobs ih
    rw [next]
    exact ih
  case acted => exact fun origin action rest jobs => holding_ofAction pressed w origin _ action
  case keyed =>
    intro jobs code key
    rw [key]
    rfl
  case keyless =>
    intro jobs other
    cases resume with
    | key code => exact absurd rfl (other code)
    | nothing | answers => rfl
  case answered =>
    exact fun origin request targets jobs => holding_ofAnswers pressed n w origin request targets jobs resume
  all_goals
    intros
    rfl

end Step

namespace Run

/-- The run with other keys held down. -/
def holding (pressed : List UInt8) (run : Run) : Run := { run with world := run.world.holding pressed }

variable (pressed : List UInt8) (n : Nat)

theorem holding_batch (w : World) (resume : Resume) (jobs : List Job) (budget : Nat) :
    batch (w.holding pressed) (resume.renamed n) jobs budget =
      Prod.map id (holding pressed) (batch w resume jobs budget) := by
  induction budget generalizing w resume jobs with
  | zero => rfl
  | succ budget ih =>
      unfold batch
      rw [Step.holding_next]
      cases Step.next w resume jobs with
      | mk step later =>
          cases step with
          | tick jobs => exact ih later .nothing jobs
          | wait | fail | done => rfl

theorem holding_exec (run : Run) (resume : Resume) (maxTicks : Nat) :
    (run.holding pressed).exec (resume.renamed n) maxTicks =
      Prod.map id (holding pressed) (run.exec resume maxTicks) := by
  obtain ⟨jobs, w⟩ := run
  cases jobs with
  | none => rfl
  | some jobs => exact holding_batch pressed n w resume jobs _

end Run

/-! ## Computers -/

namespace Computer

/-- The second computer is the first, with other keys held down and its bodies named so much later. -/
structure Alike (n : Nat) (c twin : Computer) : Prop where
  program : twin.program = c.program
  run : ∃ pressed, twin.run = c.run.holding pressed
  nextBody : twin.nextBody = c.nextBody + n

variable {n : Nat} {c twin : Computer}

/-- The handset of the one moves as that of the other does. -/
theorem Alike.mapHandset (alike : Alike n c twin) {f g : Handset → Handset}
    (same : ∀ pressed, ∃ held, g (c.handset.holding pressed) = (f c.handset).holding held) :
    Alike n (c.mapHandset f) (twin.mapHandset g) := by
  obtain ⟨program, ⟨pressed, run⟩, nextBody⟩ := alike
  obtain ⟨held, moved⟩ := same pressed
  refine ⟨program, ⟨held, ?_⟩, nextBody⟩
  rw [Computer.mapHandset, run]
  change Run.mk c.run.jobs { c.run.world with handset := g (c.handset.holding pressed) } = _
  rw [moved]
  rfl

theorem Alike.withHandset (alike : Alike n c twin) {pressed : List UInt8} {first second : Handset}
    (same : second = first.holding pressed) :
    Alike n (c.mapHandset fun _ => first) (twin.mapHandset fun _ => second) :=
  alike.mapHandset fun _ => ⟨pressed, same⟩

theorem Alike.handset (alike : Alike n c twin) : ∃ pressed, twin.handset = c.handset.holding pressed := by
  obtain ⟨pressed, run⟩ := alike.run
  exact ⟨pressed, by rw [Computer.handset, run]; rfl⟩

theorem twins (n : Nat) : Rig.Twins n (Alike n) where
  exec := by
    rintro c twin ⟨program, ⟨pressed, run⟩, nextBody⟩ resume budget
    have ran := Run.holding_exec pressed n c.run resume budget
    rw [← run, Prod.ext_iff] at ran
    exact ⟨ran.1, program, ⟨pressed, ran.2⟩, nextBody⟩
  stop := by
    rintro c twin ⟨program, ⟨pressed, run⟩, nextBody⟩
    refine ⟨?_, program, ⟨pressed, ?_⟩, nextBody⟩
    · simp only [Engine.stop, stop, run]
      rfl
    · simp only [Engine.stop, stop, run]
      rfl
  reset := by
    rintro c twin ⟨program, ⟨pressed, run⟩, nextBody⟩
    refine ⟨program, ⟨pressed, ?_⟩, nextBody⟩
    simp only [Engine.reset, reset, program, run]
    rfl
  compile := by
    rintro c twin ⟨program, run, nextBody⟩ units
    have counted : twin.nextBody + 1 = c.nextBody + 1 + n := by omega
    refine ⟨?_, program, run, counted⟩
    simp only [Engine.compile, compile, nextBody]
    rfl
  encode _ := rfl
  release like _ := like
  restart like := like.mapHandset fun _ => ⟨[], rfl⟩
  takeKey {c twin} like := by
    obtain ⟨pressed, handset⟩ := like.handset
    have taken := c.handset.holding_takeKey pressed
    rw [← handset, Prod.ext_iff] at taken
    exact ⟨taken.1, like.withHandset taken.2⟩
  keyDown like key := like.mapHandset fun pressed => Handset.exists_holding_keyDown pressed _ key
  lifted {c twin} like key := by
    obtain ⟨program, ⟨pressed, run⟩, nextBody⟩ := like
    exact ⟨program, ⟨pressed, run⟩, nextBody⟩
  lifts {c twin} like key := by
    obtain ⟨program, ⟨pressed, run⟩, nextBody⟩ := like
    refine ⟨program, ⟨pressed.filter (· ≠ key), ?_⟩, nextBody⟩
    simp only [Device.keyUp, Computer.mapHandset, run]
    rfl
  blink like := like.mapHandset fun pressed => ⟨pressed, Handset.holding_blink pressed _⟩
  hideCaret like := like.mapHandset fun pressed => ⟨pressed, Handset.holding_hideCaret pressed _⟩
  takeDirty {c twin} like := by
    obtain ⟨pressed, handset⟩ := like.handset
    have taken : twin.handset.takeDirty = Prod.map id (Handset.holding pressed) c.handset.takeDirty := by
      rw [handset]
      rfl
    rw [Prod.ext_iff] at taken
    exact ⟨taken.1, like.withHandset taken.2⟩

theorem Alike.store (alike : Alike n c twin) : Engine.store twin = Engine.store c := by
  obtain ⟨pressed, run⟩ := alike.run
  exact congrArg (fun run => run.world.store) run

theorem Alike.pixel (alike : Alike n c twin) : Device.pixel twin = Device.pixel c := by
  obtain ⟨pressed, handset⟩ := alike.handset
  funext x y
  exact congrArg (fun handset => handset.pixel x y) handset

end Computer

end PocketBasic
