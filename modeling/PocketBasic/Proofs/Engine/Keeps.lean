import PocketBasic.View.InputDialog
import PocketBasic.View.Inspector

/-! # What editing leaves alone

The input dialog and the inspector use an engine only to convert texts, to give values back and to
store a variable. An observation of the rig that these three keep is therefore kept by every event of
either view, whatever was typed.
-/

namespace PocketBasic

variable {σ α : Type} [Engine σ] {f : σ → α}

/-- An observation that converting, giving back and storing values do not change. -/
structure Engine.Keeps (f : σ → α) : Prop where
  compile : ∀ rig units, f (Engine.compile rig units).2 = f rig
  release : ∀ rig value, f (Engine.release rig value) = f rig
  withStore : ∀ rig store, f (Engine.withStore rig store) = f rig

/-- An observation that converting and giving back do not change, whatever storing may do to it. -/
structure Engine.KeptInSessions (f : σ → α) : Prop where
  compile : ∀ rig units, f (Engine.compile rig units).2 = f rig
  release : ∀ rig value, f (Engine.release rig value) = f rig

namespace Engine.KeptInSessions

theorem foldl_release (kept : KeptInSessions f) (values : List Answer) (rig : σ) :
    f (values.foldl Engine.release rig) = f rig := by
  induction values generalizing rig with
  | nil => rfl
  | cons value rest ih => rw [List.foldl_cons, ih, kept.release]

/-! ## Conversions -/

theorem string (kept : KeptInSessions f) (rig : σ) (text : List Char) :
    f (Conversion.string rig text).2 = f rig := by
  unfold Conversion.string
  split
  · rfl
  · split
    · exact kept.release rig _
    · rfl

theorem body (kept : KeptInSessions f) (rig : σ) (text : List Char) :
    f (Conversion.body rig text).2 = f rig := by
  simp only [Conversion.body]
  split
  · rw [kept.release, kept.compile]
  · exact kept.compile rig _

theorem answer (kept : KeptInSessions f) (rig : σ) (text : List Char) (kind : FieldKind) :
    f (Conversion.answer rig text kind).2 = f rig := by
  cases kind with
  | integer | real => rfl
  | string => exact kept.string rig text
  | func name param => exact kept.body rig text

theorem value (kept : KeptInSessions f) (rig : σ) (text : List Char) (type : ValueType) :
    f (Conversion.value rig text type).2 = f rig := by
  cases type with
  | integer | real => rfl
  | string => exact kept.string rig text

/-! ## Sessions -/

theorem giveBack (kept : KeptInSessions f) (rig : σ) (value : Option Answer) :
    f (Slot.giveBack rig value) = f rig := by
  cases value with
  | none => rfl
  | some value => exact kept.release rig value

theorem convert (kept : KeptInSessions f) (slot : Slot) (rig : σ) (text : List Char) :
    f (slot.convert rig text).2 = f rig := by
  have converted : f (Conversion.answer (Slot.giveBack rig slot.value) text slot.kind).2 = f rig := by
    rw [kept.answer, kept.giveBack]
  unfold Slot.convert
  split <;> simp_all only

theorem finish (kept : KeptInSessions f) (s : Session) (rig : σ) (index : Nat) (text : List Char) :
    f (s.finish rig index text).2.2 = f rig := by
  unfold Session.finish
  split
  · exact kept.convert _ rig text
  · rfl

theorem convertAll (kept : KeptInSessions f) (rig : σ) (slots : List Slot) (texts : List (List Char)) :
    f (Session.convertAll rig slots texts).2 = f rig := by
  induction slots generalizing rig texts with
  | nil => rfl
  | cons slot rest ih =>
      simp only [Session.convertAll]
      rw [ih, kept.convert]

theorem submit (kept : KeptInSessions f) (s : Session) (rig : σ) (texts : List (List Char)) :
    f (s.submit rig texts).2 = f rig := by
  unfold Session.submit
  split
  · exact kept.convertAll rig s.slots texts
  · rfl

theorem releaseAll (kept : KeptInSessions f) (rig : σ) (slots : List Slot) :
    f (Session.releaseAll rig slots) = f rig := by
  unfold Session.releaseAll
  induction slots generalizing rig with
  | nil => rfl
  | cons slot rest ih => rw [List.foldl_cons, ih, kept.giveBack]

theorem cancel (kept : KeptInSessions f) (s : Session) (rig : σ) : f (s.cancel rig).2 = f rig := by
  unfold Session.cancel
  split
  · rfl
  · exact kept.releaseAll rig s.slots

/-! ## The input dialog -/

theorem cancelDialog (kept : KeptInSessions f) (d : InputDialog) (rig : σ) :
    f (d.cancel rig).2.2 = f rig :=
  kept.cancel d.session rig

theorem moveFocus (kept : KeptInSessions f) (d : InputDialog) (rig : σ) (index : Nat) :
    f (d.moveFocus rig index).2 = f rig :=
  kept.finish d.session rig d.focus _

theorem submitDialog (kept : KeptInSessions f) (d : InputDialog) (rig : σ) :
    f (d.submit rig).2 = f rig :=
  kept.submit d.session rig _

theorem clickField (kept : KeptInSessions f) (d : InputDialog) (rig : σ) (input : Input)
    (bounds : CellRect) : f (d.clickField rig input bounds).2 = f rig := by
  simp only [InputDialog.clickField]
  split
  · split
    · rfl
    · exact kept.moveFocus _ rig _
  · rfl

theorem typeInto (kept : KeptInSessions f) (d : InputDialog) (rig : σ) (input : Input)
    (bounds : CellRect) : f (d.typeInto rig input bounds).2 = f rig := by
  unfold InputDialog.typeInto
  split
  · rfl
  · dsimp only
    split
    · split
      · exact kept.submitDialog _ rig
      · exact kept.moveFocus _ rig _
    · rfl

theorem edit (kept : KeptInSessions f) (d : InputDialog) (rig : σ) (input : Input) (bounds : CellRect) :
    f (d.edit rig input bounds).2 = f rig := by
  unfold InputDialog.edit
  split
  · exact kept.submitDialog d rig
  · exact kept.moveFocus d rig _
  · exact kept.moveFocus d rig _
  · exact kept.moveFocus d rig _
  · exact kept.moveFocus d rig _
  · split
    · exact kept.submitDialog d rig
    · exact kept.clickField d rig _ bounds
  · exact kept.typeInto d rig input bounds

/-- An event of the dialog keeps the observation, also one that closes it. -/
theorem dialog (kept : KeptInSessions f) (d : InputDialog) (rig : σ) (input : Input) (bounds : CellRect) :
    f (d.handle rig input bounds).2.2 = f rig := by
  unfold InputDialog.handle
  split
  · rfl
  · split
    · exact kept.cancelDialog d rig
    · exact kept.edit d rig input bounds

end Engine.KeptInSessions

namespace Engine.Keeps

theorem inSessions (keeps : Keeps f) : KeptInSessions f := ⟨keeps.compile, keeps.release⟩

theorem foldl_release (keeps : Keeps f) (values : List Answer) (rig : σ) :
    f (values.foldl Engine.release rig) = f rig :=
  keeps.inSessions.foldl_release values rig

/-! ## The views -/

theorem cancelDialog (keeps : Keeps f) (d : InputDialog) (rig : σ) :
    f (d.cancel rig).2.2 = f rig :=
  keeps.inSessions.cancelDialog d rig

theorem dialog (keeps : Keeps f) (d : InputDialog) (rig : σ) (input : Input) (bounds : CellRect) :
    f (d.handle rig input bounds).2.2 = f rig :=
  keeps.inSessions.dialog d rig input bounds

theorem commit (keeps : Keeps f) (i : Inspector) (rig : σ) (text : List Char) :
    f (i.commit rig text).2.2 = f rig := by
  unfold Inspector.commit
  split
  · split
    · rfl
    · rename_i row _
      have converted := keeps.inSessions.value rig text (.ofName row.target.name)
      split
      · simp_all only
      · split
        · simp_all only
        · simp_all only [keeps.withStore]
  · rfl

theorem commitPanel (keeps : Keeps f) (p : InspectorPanel) (rig : σ) (text : List Char) :
    f (p.commit rig text).2 = f rig := by
  have committed := keeps.commit p.model rig text
  unfold InspectorPanel.commit
  split <;> simp_all only

/-- An event of the inspector keeps the observation, also one that stores a value. -/
theorem inspector (keeps : Keeps f) (p : InspectorPanel) (rig : σ) (input : Input)
    (bounds : CellRect) : f (p.handle rig input bounds).2.2 = f rig := by
  unfold InspectorPanel.handle
  split
  · split
    · split <;> rfl
    · rfl
  · split
    · rfl
    · split
      · simp only [InspectorPanel.typeInto]
        split
        · rfl
        · split
          · exact keeps.commitPanel _ rig _
          · rfl
      · split <;> rfl

end Engine.Keeps

end PocketBasic
