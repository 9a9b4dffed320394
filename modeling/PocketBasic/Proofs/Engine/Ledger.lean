import PocketBasic.Engine.Conversion

/-! # Ledgers

A converted value belongs to whoever converted it until it is given back to the engine or goes into a
batch. A ledger is a rig that enters both, value by value, and passes everything on to the rig inside it.
What is neither in its books nor held by anyone has been lost.
-/

namespace PocketBasic

/-- The values that a batch is resumed with. -/
def Resume.values : Resume → List Answer
  | .answers values => values
  | _ => []

/-- A rig with the values that were given back to it and those that were delivered to its program. -/
structure Ledger (σ : Type) where
  rig : σ
  released : List Answer
  delivered : List Answer

variable {σ : Type}

namespace Ledger

/-- A rig on which nothing has been entered. -/
def opened (rig : σ) : Ledger σ := ⟨rig, [], []⟩

instance [Engine σ] : Engine (Ledger σ) where
  exec l resume budget :=
    let (outcome, rig) := Engine.exec l.rig resume budget
    (outcome, { l with rig, delivered := l.delivered ++ resume.values })
  stop l :=
    let (complaint, rig) := Engine.stop l.rig
    (complaint, { l with rig })
  reset l := { l with rig := Engine.reset l.rig }
  compile l units :=
    let (compilation, rig) := Engine.compile l.rig units
    (compilation, { l with rig })
  encode l := Engine.encode l.rig
  release l value := { l with rig := Engine.release l.rig value, released := l.released ++ [value] }
  store l := Engine.store l.rig
  withStore l store := { l with rig := Engine.withStore l.rig store }
  brokenOff l := Engine.brokenOff l.rig

instance [Device σ] : Device (Ledger σ) where
  restart l := { l with rig := Device.restart l.rig }
  takeKey l :=
    let (key, rig) := Device.takeKey l.rig
    (key, { l with rig })
  keyDown l key := { l with rig := Device.keyDown l.rig key }
  keyUp l key := { l with rig := Device.keyUp l.rig key }
  blink l := { l with rig := Device.blink l.rig }
  hideCaret l := { l with rig := Device.hideCaret l.rig }
  isPressed l := Device.isPressed l.rig
  takeDirty l :=
    let (area, rig) := Device.takeDirty l.rig
    (area, { l with rig })
  pixel l := Device.pixel l.rig

/-- How often a value has been entered or is held. -/
def tally (l : Ledger σ) (held : List Answer) (value : Answer) : Nat :=
  l.released.count value + l.delivered.count value + held.count value

variable (l : Ledger σ) (held : List Answer) (value : Answer)

theorem tally_append (more : List Answer) :
    l.tally (held ++ more) value = l.tally held value + more.count value := by
  simp only [tally, List.count_append, Nat.add_assoc]

/-- Everything that has been entered. -/
def books (l : Ledger σ) : List Answer × List Answer := (l.released, l.delivered)

theorem tally_of_books {l other : Ledger σ} (books : other.books = l.books) :
    other.tally held value = l.tally held value := by
  obtain ⟨released, delivered⟩ : other.released = l.released ∧ other.delivered = l.delivered :=
    Prod.mk.inj books
  rw [tally, tally, released, delivered]

/-- If every count agrees, the books and what is held make up what was obtained. -/
theorem perm_of_tally {obtained : List Answer}
    (counts : ∀ value, l.tally held value = obtained.count value) :
    obtained.Perm (l.released ++ l.delivered ++ held) := by
  refine List.perm_iff_count.mpr fun value => ?_
  rw [List.count_append, List.count_append, ← counts]
  rfl

variable [Engine σ]

/-- What is given back was held before. -/
theorem tally_release (returned : Answer) :
    (Engine.release l returned).tally held value = l.tally (returned :: held) value := by
  simp only [tally, Engine.release, List.count_append, List.count_cons, List.count_nil]
  omega

theorem tally_foldl_release (returned : List Answer) :
    (returned.foldl Engine.release l).tally held value = l.tally (returned ++ held) value := by
  induction returned generalizing l with
  | nil => rfl
  | cons first rest ih =>
      rw [List.foldl_cons, ih, tally_release]
      rfl

/-- What goes into a batch was held before. -/
theorem tally_exec (resume : Resume) (budget : Nat) :
    (Engine.exec l resume budget).2.tally held value = l.tally (resume.values ++ held) value := by
  simp only [tally, Engine.exec, List.count_append]
  omega

end Ledger

/-! ## Runs -/

section Run

variable {α β : Type} (act : α → β → α) (obtained : α → β → List Answer)

/-- What is obtained along a run. -/
def obtainedAlong (state : α) : List β → List Answer
  | [] => []
  | b :: rest => obtained state b ++ obtainedAlong (act state b) rest

/-- If every act enters or keeps what it obtains, then so does a run. -/
theorem tally_along {act : α → β → α} {obtained : α → β → List Answer} {Good : α → Prop}
    (tally : α → Answer → Nat) (kept : ∀ {state}, Good state → ∀ b, Good (act state b))
    (entered : ∀ {state}, Good state → ∀ b value,
      tally (act state b) value = tally state value + (obtained state b).count value)
    {state : α} (good : Good state) (bs : List β) :
    Good (bs.foldl act state) ∧ ∀ value, tally (bs.foldl act state) value =
      tally state value + (obtainedAlong act obtained state bs).count value := by
  induction bs generalizing state with
  | nil => exact ⟨good, fun _ => rfl⟩
  | cons b rest ih =>
      obtain ⟨still, counts⟩ := ih (kept good b)
      refine ⟨still, fun value => ?_⟩
      rw [List.foldl_cons, counts, entered good b, obtainedAlong, List.count_append, Nat.add_assoc]

end Run

/-! ## Conversions -/

namespace Conversion

variable [Engine σ]

/-- The values that a conversion obtains, whether or not they can be used: a number that is read, a string
    that can be encoded, and the body that compiling gives in any case. -/
def obtained (engine : σ) (text : List Char) : FieldKind → List Answer
  | .integer => ((integer text).toOption.map Answer.integer).toList
  | .real => ((real text).toOption.map Answer.real).toList
  | .string => ((Engine.encode engine (Text.toUnits text)).toOption.map Answer.string).toList
  | .func _ _ => [.func (Engine.compile engine (Text.toUnits text)).1.body]

/-- A conversion gives back what it obtains and does not hand on. -/
theorem tally_answer (l : Ledger σ) (text : List Char) (kind : FieldKind) (value : Answer) :
    (answer l text kind).2.tally (answer l text kind).1.toOption.toList value =
      l.tally (obtained l text kind) value := by
  cases kind with
  | integer =>
      simp only [answer, obtained]
      cases integer text <;> rfl
  | real =>
      simp only [answer, obtained]
      cases real text <;> rfl
  | string =>
      simp only [answer, obtained, string]
      cases Engine.encode l (Text.toUnits text) with
      | error e => rfl
      | ok s =>
          dsimp only
          split
          · exact l.tally_release [] value (.string s)
          · rfl
  | func name param =>
      simp only [answer, obtained, body]
      split
      · rename_i d _
        exact Ledger.tally_release _ [] value _
      · rfl

end Conversion

end PocketBasic
