import PocketBasic.Program.Computer
import PocketBasic.Proofs.Handset.Caret
import PocketBasic.Proofs.Program.Steps

/-! # What a program draws

A program gets at the screen through the operations of its handset only. What holds along each of them holds
along a batch, wherever the batch was cut off: everything that it changes is marked, and it never leaves a
caret behind.
-/

namespace PocketBasic

/-- A preorder of handsets along everything that a program draws. -/
structure Handset.Drawing (R : Handset → Handset → Prop) : Prop where
  refl : ∀ h, R h h
  trans : ∀ {first second third}, R first second → R second third → R first third
  clearScreen : ∀ h, R h h.clearScreen
  fill : ∀ h area, R h (h.fill area)
  clear : ∀ h area, R h (h.clear area)
  invert : ∀ h area, R h (h.invert area)
  setCursor : ∀ h x y, R h (h.setCursor x y)

theorem Step.handset_ofAnswers (w : World) (origin : Origin) (request : Request)
    (targets : List (Option String)) (jobs : List Job) (resume : Resume) :
    (ofAnswers w origin request targets jobs resume).2.handset = w.handset := by
  unfold ofAnswers
  dsimp only
  split
  · split
    · split <;> rfl
    · rfl
  · rfl

namespace Handset.Drawing

variable {R : Handset → Handset → Prop} (drawing : Drawing R)

include drawing

theorem ofAction (w : World) (origin : Origin) (jobs : List Job) (action : Action) :
    R w.handset (Step.ofAction w origin jobs action).2.handset := by
  cases action with
  | clearScreen => exact drawing.clearScreen w.handset
  | fill area => exact drawing.fill w.handset area
  | clear area => exact drawing.clear w.handset area
  | invert area => exact drawing.invert w.handset area
  | moveCursor x y =>
      simp only [Step.ofAction]
      split
      · exact drawing.refl w.handset
      · split
        · exact drawing.refl w.handset
        · exact drawing.setCursor w.handset _ _
  | work | sleep | inkey | input | fail | finish => exact drawing.refl w.handset
  | assign | dim | openFile | closeFile =>
      simp only [Step.ofAction]
      split <;> exact drawing.refl w.handset

theorem next (w : World) (resume : Resume) (jobs : List Job) :
    R w.handset (Step.next w resume jobs).2.handset := by
  refine Step.next_cases w resume jobs ?done ?through ?acted ?entered ?passed ?worked ?ticked ?keyed
    ?keyless ?answered
  case through | worked => exact fun _ ih => ih
  case acted => exact fun origin action rest jobs => drawing.ofAction w origin _ action
  case answered =>
    intro origin request targets jobs
    rw [Step.handset_ofAnswers]
    exact drawing.refl w.handset
  all_goals
    intros
    exact drawing.refl w.handset

theorem batch (w : World) (resume : Resume) (jobs : List Job) (budget : Nat) :
    R w.handset (Run.batch w resume jobs budget).2.world.handset := by
  induction budget generalizing w resume jobs with
  | zero => exact drawing.refl w.handset
  | succ budget ih =>
      have stepped := drawing.next w resume jobs
      unfold Run.batch
      split
      all_goals
        rename_i after
        rw [after] at stepped
      · exact drawing.trans stepped (ih _ .nothing _)
      all_goals exact stepped

theorem exec (run : Run) (resume : Resume) (maxTicks : Nat) :
    R run.world.handset (run.exec resume maxTicks).2.world.handset := by
  unfold Run.exec
  split
  · exact drawing.refl run.world.handset
  · exact drawing.batch run.world resume _ _

end Handset.Drawing

/-- Everything that a program changes is marked. -/
theorem Handset.Marks.drawing : Handset.Drawing Handset.Marks :=
  ⟨.refl, .trans, .clearScreen, .fill, .clear, .invert, .setCursor⟩

/-- A program does not draw the caret. -/
theorem Handset.drawing_hidden :
    Handset.Drawing fun h other => h.caretShown = false → other.caretShown = false where
  refl _ := id
  trans first second := second ∘ first
  clearScreen h _ := h.caretShown_clearScreen
  fill h area _ := h.caretShown_fill area
  clear h area _ := h.caretShown_clear area
  invert h area _ := h.caretShown_invert area
  setCursor h x y _ := h.caretShown_setCursor x y

end PocketBasic
