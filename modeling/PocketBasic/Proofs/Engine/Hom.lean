import PocketBasic.View.InputDialog
import PocketBasic.View.Inspector

/-! # Rigs that cannot be told apart

The simulator asks a rig through its two interfaces and never looks inside. If one rig seen in some way
answers every request as another rig does, then whatever is done with the one comes out as it does with the
other. Here this is said of conversions, of sessions and of the two views that convert.
-/

namespace PocketBasic

variable {σ τ : Type}

/-- A view of one rig as another that answers every request as that one does. -/
structure Rig.Hom [Engine σ] [Device σ] [Engine τ] [Device τ] (f : σ → τ) : Prop where
  exec : ∀ rig resume budget, Engine.exec (f rig) resume budget =
    ((Engine.exec rig resume budget).1, f (Engine.exec rig resume budget).2)
  stop : ∀ rig, Engine.stop (f rig) = ((Engine.stop rig).1, f (Engine.stop rig).2)
  reset : ∀ rig, Engine.reset (f rig) = f (Engine.reset rig)
  compile : ∀ rig units, Engine.compile (f rig) units =
    ((Engine.compile rig units).1, f (Engine.compile rig units).2)
  encode : ∀ rig, Engine.encode (f rig) = Engine.encode rig
  release : ∀ rig value, Engine.release (f rig) value = f (Engine.release rig value)
  store : ∀ rig, Engine.store (f rig) = Engine.store rig
  withStore : ∀ rig store, Engine.withStore (f rig) store = f (Engine.withStore rig store)
  restart : ∀ rig, Device.restart (f rig) = f (Device.restart rig)
  takeKey : ∀ rig, Device.takeKey (f rig) = ((Device.takeKey rig).1, f (Device.takeKey rig).2)
  keyDown : ∀ rig key, Device.keyDown (f rig) key = f (Device.keyDown rig key)
  keyUp : ∀ rig key, Device.keyUp (f rig) key = f (Device.keyUp rig key)
  blink : ∀ rig, Device.blink (f rig) = f (Device.blink rig)
  hideCaret : ∀ rig, Device.hideCaret (f rig) = f (Device.hideCaret rig)
  takeDirty : ∀ rig,
    Device.takeDirty (f rig) = ((Device.takeDirty rig).1, f (Device.takeDirty rig).2)
  pixel : ∀ rig, Device.pixel (f rig) = Device.pixel rig

variable [Engine σ] [Device σ] [Engine τ] [Device τ] {f : σ → τ}

namespace Rig.Hom

variable (hom : Hom f)

include hom

theorem foldl_release (values : List Answer) (rig : σ) :
    values.foldl Engine.release (f rig) = f (values.foldl Engine.release rig) := by
  induction values generalizing rig with
  | nil => rfl
  | cons value rest ih => rw [List.foldl_cons, hom.release, ih, List.foldl_cons]

/-! ## Conversions -/

theorem string (rig : σ) (text : List Char) :
    Conversion.string (f rig) text = Prod.map id f (Conversion.string rig text) := by
  unfold Conversion.string
  rw [hom.encode]
  split
  · rfl
  · split
    · rw [hom.release]
      rfl
    · rfl

theorem body (rig : σ) (text : List Char) :
    Conversion.body (f rig) text = Prod.map id f (Conversion.body rig text) := by
  unfold Conversion.body
  rw [hom.compile]
  dsimp only
  split
  · rw [hom.release]
    rfl
  · rfl

theorem answer (rig : σ) (text : List Char) (kind : FieldKind) :
    Conversion.answer (f rig) text kind = Prod.map id f (Conversion.answer rig text kind) := by
  cases kind with
  | integer | real => rfl
  | string =>
      simp only [Conversion.answer, hom.string]
      rfl
  | func name param =>
      simp only [Conversion.answer, hom.body]
      rfl

theorem value (rig : σ) (text : List Char) (type : ValueType) :
    Conversion.value (f rig) text type = Prod.map id f (Conversion.value rig text type) := by
  cases type with
  | integer | real => rfl
  | string =>
      simp only [Conversion.value, hom.string]
      rfl

/-! ## Sessions -/

theorem giveBack (rig : σ) (value : Option Answer) :
    Slot.giveBack (f rig) value = f (Slot.giveBack rig value) := by
  cases value with
  | none => rfl
  | some value => exact hom.release rig value

theorem convert (slot : Slot) (rig : σ) (text : List Char) :
    slot.convert (f rig) text = Prod.map id f (slot.convert rig text) := by
  unfold Slot.convert
  rw [hom.giveBack, hom.answer]
  cases Conversion.answer (Slot.giveBack rig slot.value) text slot.kind with
  | mk result later => cases result <;> rfl

theorem finish (s : Session) (rig : σ) (index : Nat) (text : List Char) :
    s.finish (f rig) index text = Prod.map id (Prod.map id f) (s.finish rig index text) := by
  unfold Session.finish
  cases s.state with
  | accepted | rejected => rfl
  | editing =>
      cases s.slots[index]? with
      | none => rfl
      | some slot =>
          dsimp only
          rw [hom.convert]
          rfl

theorem convertAll (rig : σ) (slots : List Slot) (texts : List (List Char)) :
    Session.convertAll (f rig) slots texts = Prod.map id f (Session.convertAll rig slots texts) := by
  induction slots generalizing rig texts with
  | nil => rfl
  | cons slot rest ih =>
      simp only [Session.convertAll, hom.convert, Prod.map, ih]
      rfl

theorem submit (s : Session) (rig : σ) (texts : List (List Char)) :
    s.submit (f rig) texts = Prod.map id f (s.submit rig texts) := by
  unfold Session.submit
  cases s.state with
  | accepted | rejected => rfl
  | editing =>
      dsimp only
      rw [hom.convertAll]
      rfl

theorem releaseAll (rig : σ) (slots : List Slot) :
    Session.releaseAll (f rig) slots = f (Session.releaseAll rig slots) := by
  unfold Session.releaseAll
  induction slots generalizing rig with
  | nil => rfl
  | cons slot rest ih => rw [List.foldl_cons, hom.giveBack, ih, List.foldl_cons]

theorem cancel (s : Session) (rig : σ) : s.cancel (f rig) = Prod.map id f (s.cancel rig) := by
  unfold Session.cancel
  rw [hom.releaseAll]
  cases s.state <;> rfl

/-! ## The input dialog -/

theorem cancelDialog (d : InputDialog) (rig : σ) :
    d.cancel (f rig) = Prod.map id (Prod.map id f) (d.cancel rig) := by
  unfold InputDialog.cancel
  rw [hom.cancel]
  rfl

theorem moveFocus (d : InputDialog) (rig : σ) (index : Nat) :
    d.moveFocus (f rig) index = Prod.map id f (d.moveFocus rig index) := by
  unfold InputDialog.moveFocus
  dsimp only
  rw [hom.finish]
  rfl

theorem submitDialog (d : InputDialog) (rig : σ) :
    d.submit (f rig) = Prod.map id f (d.submit rig) := by
  unfold InputDialog.submit
  rw [hom.submit]
  rfl

theorem clickField (d : InputDialog) (rig : σ) (input : Input) (bounds : CellRect) :
    d.clickField (f rig) input bounds = Prod.map id f (d.clickField rig input bounds) := by
  unfold InputDialog.clickField
  dsimp only
  split
  · split
    · rfl
    · exact hom.moveFocus _ rig _
  · rfl

theorem typeInto (d : InputDialog) (rig : σ) (input : Input) (bounds : CellRect) :
    d.typeInto (f rig) input bounds = Prod.map id f (d.typeInto rig input bounds) := by
  unfold InputDialog.typeInto
  split
  · rfl
  · dsimp only
    split
    · split
      · exact hom.submitDialog _ rig
      · exact hom.moveFocus _ rig _
    · rfl

theorem edit (d : InputDialog) (rig : σ) (input : Input) (bounds : CellRect) :
    d.edit (f rig) input bounds = Prod.map id f (d.edit rig input bounds) := by
  unfold InputDialog.edit
  split
  · exact hom.submitDialog d rig
  · exact hom.moveFocus d rig _
  · exact hom.moveFocus d rig _
  · exact hom.moveFocus d rig _
  · exact hom.moveFocus d rig _
  · split
    · exact hom.submitDialog d rig
    · exact hom.clickField d rig _ bounds
  · exact hom.typeInto d rig input bounds

theorem dialog (d : InputDialog) (rig : σ) (input : Input) (bounds : CellRect) :
    d.handle (f rig) input bounds = Prod.map id (Prod.map id f) (d.handle rig input bounds) := by
  unfold InputDialog.handle
  split
  · rfl
  · split
    · exact hom.cancelDialog d rig
    · rw [hom.edit]
      rfl

/-! ## The inspector -/

theorem commit (i : Inspector) (rig : σ) (text : List Char) :
    i.commit (f rig) text = Prod.map id (Prod.map id f) (i.commit rig text) := by
  unfold Inspector.commit
  cases i.enabled with
  | false => rfl
  | true =>
      cases i.selectedRow? with
      | none => rfl
      | some row =>
          simp only [if_true, hom.value]
          cases Conversion.value rig text (.ofName row.target.name) with
          | mk result later =>
              cases result with
              | error e => rfl
              | ok stored =>
                  simp only [Prod.map, id, hom.store]
                  split
                  · rfl
                  · rw [hom.withStore]

theorem commitPanel (p : InspectorPanel) (rig : σ) (text : List Char) :
    p.commit (f rig) text = Prod.map id f (p.commit rig text) := by
  unfold InspectorPanel.commit
  rw [hom.commit]
  cases p.model.commit rig text with
  | mk error rest => cases error <;> rfl

theorem inspector (p : InspectorPanel) (rig : σ) (input : Input) (bounds : CellRect) :
    p.handle (f rig) input bounds = Prod.map id (Prod.map id f) (p.handle rig input bounds) := by
  unfold InspectorPanel.handle
  rw [hom.store]
  split
  · split
    · split <;> rfl
    · rfl
  · split
    · rfl
    · split
      · unfold InspectorPanel.typeInto
        split
        · rfl
        · dsimp only
          split
          · rw [hom.commitPanel]
            rfl
          · rfl
      · split <;> rfl

end Rig.Hom

end PocketBasic
