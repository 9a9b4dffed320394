import PocketBasic.View.InputDialog

/-! # Rigs that differ in the names of function bodies

An engine names the bodies that it compiles, and goes on counting when the program is started again. Nobody
looks at such a name but the engine itself. So two rigs that answer alike but for these names cannot be told
apart by conversions, by sessions and by the dialog: what is typed comes to the same, with the bodies of the
one rig under the names of the other.
-/

namespace PocketBasic

/-! ## Bodies under other names -/

/-- The body under a name that is given so much later. -/
def FnBody.renamed (n : Nat) (b : FnBody) : FnBody := { b with id := b.id + n }

def Compilation.renamed (n : Nat) (c : Compilation) : Compilation := { c with body := c.body.renamed n }

def Answer.renamed (n : Nat) : Answer → Answer
  | .func body => .func (body.renamed n)
  | other => other

def Resume.renamed (n : Nat) : Resume → Resume
  | .answers values => .answers (values.map (.renamed n))
  | other => other

def Slot.renamed (n : Nat) (s : Slot) : Slot := { s with value := s.value.map (.renamed n) }

def Session.renamed (n : Nat) (s : Session) : Session := { s with slots := s.slots.map (.renamed n) }

def DialogOutcome.renamed (n : Nat) : DialogOutcome → DialogOutcome
  | .accepted values => .accepted (values.map (.renamed n))
  | other => other

def InputDialog.renamed (n : Nat) (d : InputDialog) : InputDialog :=
  { d with session := d.session.renamed n }

@[simp] theorem Session.state_renamed (n : Nat) (s : Session) : (s.renamed n).state = s.state := rfl

@[simp] theorem Session.slots_renamed (n : Nat) (s : Session) :
    (s.renamed n).slots = s.slots.map (.renamed n) := rfl

theorem Slot.renamed_ofKind (n : Nat) (kind : FieldKind) : (Slot.ofKind kind).renamed n = .ofKind kind := rfl

@[simp] theorem Slot.isValid_renamed (n : Nat) (s : Slot) : (s.renamed n).isValid = s.isValid := by
  simp [isValid, renamed]

/-- Nothing is compiled in a new dialog. -/
theorem InputDialog.renamed_ofRequest (n : Nat) (r : Request) :
    (InputDialog.ofRequest r).renamed n = .ofRequest r := by
  simp [renamed, ofRequest, Session.renamed, Session.ofRequest, Slot.renamed_ofKind]

theorem Session.take_renamed (n : Nat) (s : Session) :
    (s.renamed n).take =
      (s.take.1.map fun values => values.map (Answer.renamed n), s.take.2.renamed n) := by
  have values (slots : List Slot) : (slots.map (Slot.renamed n)).mapM Slot.value =
      (slots.mapM Slot.value).map fun values => values.map (Answer.renamed n) := by
    induction slots with
    | nil => rfl
    | cons slot rest ih =>
        simp only [List.map_cons, List.mapM_cons, ih]
        cases found : slot.value with
        | none => simp [Slot.renamed, found]
        | some value => cases others : rest.mapM Slot.value <;> simp [Slot.renamed, found]
  unfold take
  rw [state_renamed]
  cases s.state with
  | accepted =>
      rw [slots_renamed, values]
      simp [Slot.renamed, renamed]
  | editing | rejected => rfl

theorem InputDialog.outcome_renamed (n : Nat) (d : InputDialog) :
    (d.renamed n).outcome = (d.outcome.1.renamed n, d.outcome.2.renamed n) := by
  have taken : (d.renamed n).session.take = _ := d.session.take_renamed n
  unfold outcome
  rw [taken, show (d.renamed n).session.state = d.session.state from rfl]
  cases d.session.state with
  | accepted =>
      dsimp only
      cases d.session.take.1 <;> rfl
  | rejected | editing => rfl

/-! ## Twins -/

variable {σ α : Type}

/-- The second result is the first up to `f`, and the states that are left are related. -/
def Echo (R : σ → σ → Prop) (f : α → α) (x y : α × σ) : Prop := y.1 = f x.1 ∧ R x.2 y.2

theorem Echo.ite {R : σ → σ → Prop} {f : α → α} {c : Prop} [Decidable c] {x x' y y' : α × σ}
    (yes : Echo R f x y) (no : Echo R f x' y') : Echo R f (if c then x else x') (if c then y else y') := by
  split
  · exact yes
  · exact no

variable [Engine σ]

/-- The rigs answer alike, up to the names of bodies. It makes no difference which keys are held down. -/
structure Rig.Twins [Device σ] (n : Nat) (R : σ → σ → Prop) : Prop where
  exec : ∀ {rig twin}, R rig twin → ∀ resume budget,
    Echo R id (Engine.exec rig resume budget) (Engine.exec twin (Resume.renamed n resume) budget)
  stop : ∀ {rig twin}, R rig twin → Echo R id (Engine.stop rig) (Engine.stop twin)
  reset : ∀ {rig twin}, R rig twin → R (Engine.reset rig) (Engine.reset twin)
  compile : ∀ {rig twin}, R rig twin → ∀ units,
    Echo R (Compilation.renamed n) (Engine.compile rig units) (Engine.compile twin units)
  encode : ∀ {rig twin}, R rig twin → Engine.encode twin = Engine.encode rig
  release : ∀ {rig twin}, R rig twin → ∀ value,
    R (Engine.release rig value) (Engine.release twin (Answer.renamed n value))
  restart : ∀ {rig twin}, R rig twin → R (Device.restart rig) (Device.restart twin)
  takeKey : ∀ {rig twin}, R rig twin → Echo R id (Device.takeKey rig) (Device.takeKey twin)
  keyDown : ∀ {rig twin}, R rig twin → ∀ key, R (Device.keyDown rig key) (Device.keyDown twin key)
  lifted : ∀ {rig twin}, R rig twin → ∀ key, R (Device.keyUp rig key) twin
  lifts : ∀ {rig twin}, R rig twin → ∀ key, R rig (Device.keyUp twin key)
  blink : ∀ {rig twin}, R rig twin → R (Device.blink rig) (Device.blink twin)
  hideCaret : ∀ {rig twin}, R rig twin → R (Device.hideCaret rig) (Device.hideCaret twin)
  takeDirty : ∀ {rig twin}, R rig twin → Echo R id (Device.takeDirty rig) (Device.takeDirty twin)

variable [Device σ] {n : Nat} {R : σ → σ → Prop} {rig twin : σ}

namespace Rig.Twins

variable (twins : Rig.Twins n R) (like : R rig twin)

include twins like

theorem foldl_release (values : List Answer) :
    R (values.foldl Engine.release rig) ((values.map (.renamed n)).foldl Engine.release twin) := by
  induction values generalizing rig twin with
  | nil => exact like
  | cons value rest ih => exact ih (twins.release like value)

/-! ## Conversions -/

theorem string (text : List Char) :
    Echo R id (Conversion.string rig text) (Conversion.string twin text) := by
  unfold Conversion.string
  rw [twins.encode like]
  split
  · exact ⟨rfl, like⟩
  · exact .ite ⟨rfl, twins.release like _⟩ ⟨rfl, like⟩

theorem body (text : List Char) :
    Echo R (Except.map (.renamed n)) (Conversion.body rig text) (Conversion.body twin text) := by
  obtain ⟨same, compiled⟩ := twins.compile like (Text.toUnits text)
  have first : (Engine.compile twin (Text.toUnits text)).1.firstError =
      (Engine.compile rig (Text.toUnits text)).1.firstError := by
    rw [same]
    rfl
  unfold Conversion.body
  dsimp only
  rw [first]
  split
  · rw [same]
    exact ⟨rfl, twins.release compiled (.func _)⟩
  · rw [same]
    exact ⟨rfl, compiled⟩

theorem answer (text : List Char) (kind : FieldKind) :
    Echo R (Except.map (.renamed n)) (Conversion.answer rig text kind)
      (Conversion.answer twin text kind) := by
  have plain {α : Type} (result : Except FieldError α) (wrap : α → Answer)
      (unnamed : ∀ value, (wrap value).renamed n = wrap value) :
      result.map wrap = (result.map wrap).map (.renamed n) := by
    cases result with
    | error e => rfl
    | ok value => exact congrArg Except.ok (unnamed value).symm
  cases kind with
  | integer => exact ⟨plain _ _ fun _ => rfl, like⟩
  | real => exact ⟨plain _ _ fun _ => rfl, like⟩
  | string =>
      obtain ⟨same, converted⟩ := twins.string like text
      refine ⟨?_, converted⟩
      simp only [Conversion.answer, same]
      exact plain _ _ fun _ => rfl
  | func name param =>
      obtain ⟨same, converted⟩ := twins.body like text
      refine ⟨?_, converted⟩
      simp only [Conversion.answer, same]
      cases (Conversion.body rig text).1 <;> rfl

/-! ## Sessions -/

theorem giveBack (value : Option Answer) :
    R (Slot.giveBack rig value) (Slot.giveBack twin (value.map (.renamed n))) := by
  cases value with
  | none => exact like
  | some value => exact twins.release like value

theorem convert (slot : Slot) (text : List Char) :
    Echo R (.renamed n) (slot.convert rig text) ((slot.renamed n).convert twin text) := by
  have converted := twins.answer (twins.giveBack like slot.value) text slot.kind
  unfold Slot.convert
  simp only [Slot.renamed]
  cases first : Conversion.answer (Slot.giveBack rig slot.value) text slot.kind with
  | mk result later =>
      cases second : Conversion.answer (Slot.giveBack twin (slot.value.map (.renamed n))) text
          slot.kind with
      | mk result' later' =>
          rw [first, second] at converted
          obtain ⟨rfl, still⟩ := converted
          cases result with
          | error e => exact ⟨rfl, still⟩
          | ok value => exact ⟨rfl, still⟩

theorem finish (s : Session) (index : Nat) (text : List Char) :
    Echo R (.renamed n) (s.finish rig index text).2 ((s.renamed n).finish twin index text).2 := by
  unfold Session.finish
  cases state : s.state with
  | accepted | rejected =>
      simp only [Session.state_renamed, state]
      exact ⟨rfl, like⟩
  | editing =>
      cases chosen : s.slots[index]? with
      | none =>
          simp only [Session.state_renamed, Session.slots_renamed, state, List.getElem?_map, chosen,
            Option.map_none]
          exact ⟨rfl, like⟩
      | some slot =>
          obtain ⟨same, converted⟩ := twins.convert like slot text
          simp only [Session.state_renamed, Session.slots_renamed, state, List.getElem?_map, chosen,
            Option.map_some, same, Slot.isValid_renamed, List.length_map, ← List.map_set]
          exact ⟨rfl, converted⟩

theorem convertAll (slots : List Slot) (texts : List (List Char)) :
    Echo R (List.map (.renamed n)) (Session.convertAll rig slots texts)
      (Session.convertAll twin (slots.map (.renamed n)) texts) := by
  induction slots generalizing rig twin texts with
  | nil => exact ⟨rfl, like⟩
  | cons slot rest ih =>
      obtain ⟨first, converted⟩ := twins.convert like slot (texts.headD [])
      obtain ⟨others, all⟩ := ih converted texts.tail
      refine ⟨?_, all⟩
      simp only [Session.convertAll, List.map_cons, first, others]

theorem submit (s : Session) (texts : List (List Char)) :
    Echo R (.renamed n) (s.submit rig texts) ((s.renamed n).submit twin texts) := by
  unfold Session.submit
  cases state : s.state with
  | accepted | rejected =>
      simp only [Session.state_renamed, state]
      exact ⟨rfl, like⟩
  | editing =>
      obtain ⟨same, converted⟩ := twins.convertAll like s.slots texts
      simp only [Session.state_renamed, Session.slots_renamed, state, same, List.all_map,
        Function.comp_def, Slot.isValid_renamed]
      exact ⟨rfl, converted⟩

theorem releaseAll (slots : List Slot) :
    R (Session.releaseAll rig slots) (Session.releaseAll twin (slots.map (.renamed n))) := by
  unfold Session.releaseAll
  induction slots generalizing rig twin with
  | nil => exact like
  | cons slot rest ih => exact ih (twins.giveBack like slot.value)

theorem cancel (s : Session) : Echo R (.renamed n) (s.cancel rig) ((s.renamed n).cancel twin) := by
  have emptied : (s.slots.map (Slot.renamed n)).map (fun slot => { slot with value := none }) =
      (s.slots.map fun slot => { slot with value := none }).map (Slot.renamed n) := by
    simp [Slot.renamed]
  unfold Session.cancel
  cases state : s.state with
  | accepted =>
      simp only [Session.state_renamed, state]
      exact ⟨rfl, like⟩
  | editing | rejected =>
      simp only [Session.state_renamed, Session.slots_renamed, state, emptied]
      exact ⟨rfl, twins.releaseAll like s.slots⟩

/-! ## The input dialog -/

theorem cancelDialog (d : InputDialog) :
    ((d.renamed n).cancel twin).1 = (d.cancel rig).1.renamed n ∧
      Echo R (.renamed n) (d.cancel rig).2 ((d.renamed n).cancel twin).2 := by
  have cancelled := twins.cancel like d.session
  have same : { d.renamed n with session := ((d.session.renamed n).cancel twin).1 } =
      InputDialog.renamed n { d with session := (d.session.cancel rig).1 } := by
    rw [cancelled.1]
    rfl
  unfold InputDialog.cancel
  dsimp only
  rw [show (d.renamed n).session = d.session.renamed n from rfl]
  rw [same, InputDialog.outcome_renamed]
  exact ⟨rfl, rfl, cancelled.2⟩

theorem moveFocus (d : InputDialog) (index : Nat) :
    Echo R (.renamed n) (d.moveFocus rig index) ((d.renamed n).moveFocus twin index) := by
  have same (text : List Char) := (twins.finish like d.session d.focus text).1
  refine ⟨?_, (twins.finish like d.session d.focus _).2⟩
  unfold InputDialog.moveFocus
  rw [show (d.renamed n).session = d.session.renamed n from rfl,
    show (d.renamed n).focus = d.focus from rfl, show (d.renamed n).fields = d.fields from rfl]
  dsimp only
  rw [same, apply_ite (InputDialog.renamed n)]
  rfl

theorem submitDialog (d : InputDialog) :
    Echo R (.renamed n) (d.submit rig) ((d.renamed n).submit twin) := by
  obtain ⟨same, submitted⟩ := twins.submit like d.session (d.fields.map (·.text))
  have invalid (slots : List Slot) : (slots.map (Slot.renamed n)).findIdx? (fun slot => !slot.isValid) =
      slots.findIdx? fun slot => !slot.isValid := by
    simp [List.findIdx?_map, Function.comp_def]
  have session : ((d.renamed n).session.submit twin ((d.renamed n).fields.map (·.text))).1 =
      (d.session.submit rig (d.fields.map (·.text))).1.renamed n := same
  refine ⟨?_, submitted⟩
  unfold InputDialog.submit
  dsimp only
  rw [session]
  simp only [Session.state_renamed, Session.slots_renamed, invalid]
  split
  · split <;> rfl
  · rfl

theorem clickField (d : InputDialog) (input : Input) (bounds : CellRect) :
    Echo R (.renamed n) (d.clickField rig input bounds) ((d.renamed n).clickField twin input bounds) := by
  have rect (index : Nat) : (d.renamed n).fieldRect bounds index = d.fieldRect bounds index := rfl
  unfold InputDialog.clickField
  simp only [rect, show (d.renamed n).fields = d.fields from rfl]
  split
  · rename_i f index _
    exact .ite ⟨rfl, like⟩ (twins.moveFocus like
      (d.updateField index fun _ => (f.handle input (d.fieldRect bounds index)).2) index)
  · exact ⟨rfl, like⟩

theorem typeInto (d : InputDialog) (input : Input) (bounds : CellRect) :
    Echo R (.renamed n) (d.typeInto rig input bounds) ((d.renamed n).typeInto twin input bounds) := by
  unfold InputDialog.typeInto
  rw [show (d.renamed n).fields[(d.renamed n).focus]? = d.fields[d.focus]? from rfl]
  split
  · exact ⟨rfl, like⟩
  · rename_i f _
    let typed := d.updateField d.focus fun _ => (f.handle input (d.fieldRect bounds d.focus)).2
    exact .ite (.ite (twins.submitDialog like typed) (twins.moveFocus like typed (typed.focus + 1)))
      ⟨rfl, like⟩

theorem edit (d : InputDialog) (input : Input) (bounds : CellRect) :
    Echo R (.renamed n) (d.edit rig input bounds) ((d.renamed n).edit twin input bounds) := by
  unfold InputDialog.edit
  split
  · exact twins.submitDialog like d
  · exact twins.moveFocus like d _
  · exact twins.moveFocus like d _
  · exact twins.moveFocus like d _
  · exact twins.moveFocus like d _
  · exact .ite (twins.submitDialog like d) (twins.clickField like d _ bounds)
  · exact twins.typeInto like d input bounds

theorem dialog (d : InputDialog) (input : Input) (bounds : CellRect) :
    ((d.renamed n).handle twin input bounds).1 = (d.handle rig input bounds).1.renamed n ∧
      Echo R (.renamed n) (d.handle rig input bounds).2 ((d.renamed n).handle twin input bounds).2 := by
  unfold InputDialog.handle
  rw [show (d.renamed n).fields = d.fields from rfl]
  split
  · exact ⟨rfl, rfl, like⟩
  · split
    · exact twins.cancelDialog like d
    · obtain ⟨same, edited⟩ := twins.edit like d input bounds
      dsimp only
      rw [same, InputDialog.outcome_renamed]
      exact ⟨rfl, rfl, edited⟩

end Rig.Twins

end PocketBasic
