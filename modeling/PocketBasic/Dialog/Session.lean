import PocketBasic.Engine.Conversion

/-! # Input sessions

One session answers one request. A field is converted when the user leaves it; submitting converts
every field again and accepts the session only if all of them succeed. A session of a single field
is accepted as soon as that field converts.

A converted value is owned by the session until it is delivered, so every path that drops one gives
it back to the engine.
-/

namespace PocketBasic

/-- One field of a session. -/
structure Slot where
  kind : FieldKind
  /-- The value of the last conversion, if it succeeded. -/
  value : Option Answer
  /-- The error of the last conversion, if it failed. -/
  error : Option FieldError
  deriving Repr, DecidableEq

namespace Slot

/-- A field nothing was typed into. -/
def ofKind (kind : FieldKind) : Slot := ⟨kind, none, none⟩

/-- The text in front of the field. -/
def label (s : Slot) : String :=
  match s.kind with
  | .integer => "Integer"
  | .real => "Real"
  | .string => "String"
  | .func name param => "FN " ++ name ++ "(" ++ param ++ ") ="

/-- The field holds a value. -/
def isValid (s : Slot) : Bool := s.value.isSome

variable {σ : Type} [Engine σ]

/-- Gives a value back, if there is one. -/
def giveBack (engine : σ) : Option Answer → σ
  | some value => Engine.release engine value
  | none => engine

/-- Converts a text. The value of the conversion before goes back first; its error stays shown
    only until a conversion succeeds. -/
def convert (s : Slot) (engine : σ) (text : List Char) : Slot × σ :=
  match Conversion.answer (giveBack engine s.value) text s.kind with
  | (.ok value, engine) => ({ s with value := some value, error := none }, engine)
  | (.error e, engine) => ({ s with value := none, error := some e }, engine)

end Slot

/-- How far a session is. -/
inductive SessionState where
  | editing
  | accepted
  | rejected
  deriving Repr, DecidableEq

/-- A session. -/
structure Session where
  prompt : Option String
  slots : List Slot
  state : SessionState
  deriving Repr, DecidableEq

namespace Session

/-- A session for a request. -/
def ofRequest (r : Request) : Session :=
  ⟨r.prompt, r.fields.map .ofKind, .editing⟩

variable {σ : Type} [Engine σ]

/-- Converts the text of one field, and tells whether it converted. -/
def finish (s : Session) (engine : σ) (index : Nat) (text : List Char) : Bool × Session × σ :=
  match s.state, s.slots[index]? with
  | .editing, some slot =>
      let (slot, engine) := slot.convert engine text
      let state := if slot.isValid && s.slots.length = 1 then .accepted else s.state
      (slot.isValid, { s with slots := s.slots.set index slot, state }, engine)
  | _, _ => (false, s, engine)

/-- Converts fields one after the other; a field without a text counts as empty. -/
def convertAll (engine : σ) : List Slot → List (List Char) → List Slot × σ
  | [], _ => ([], engine)
  | slot :: slots, texts =>
      let (slot, engine) := slot.convert engine (texts.headD [])
      let (slots, engine) := convertAll engine slots texts.tail
      (slot :: slots, engine)

/-- Converts every field, and accepts the session if all of them convert. -/
def submit (s : Session) (engine : σ) (texts : List (List Char)) : Session × σ :=
  match s.state with
  | .editing =>
      let (slots, engine) := convertAll engine s.slots texts
      ({ s with slots, state := if slots.all (·.isValid) then .accepted else .editing }, engine)
  | _ => (s, engine)

/-- Gives every value back. -/
def releaseAll (engine : σ) (slots : List Slot) : σ :=
  slots.foldl (fun engine slot => Slot.giveBack engine slot.value) engine

/-- Closes the session without an answer. An accepted session stays as it is. -/
def cancel (s : Session) (engine : σ) : Session × σ :=
  match s.state with
  | .accepted => (s, engine)
  | _ =>
      ({ s with slots := s.slots.map fun slot => { slot with value := none }, state := .rejected },
        releaseAll engine s.slots)

/-- Hands over the values of an accepted session, once. -/
def take (s : Session) : Option (List Answer) × Session :=
  match s.state with
  | .accepted =>
      (s.slots.mapM (·.value), { s with slots := s.slots.map fun slot => { slot with value := none } })
  | _ => (none, s)

end Session

end PocketBasic
