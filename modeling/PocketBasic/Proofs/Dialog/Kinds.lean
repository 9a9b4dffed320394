import Mathlib.Data.List.Forall2
import PocketBasic.Proofs.Dialog.Accounts

/-! # The kinds of answers

A field gets its value from a conversion to its kind, and nothing else puts a value into it. So a session
that is accepted hands over one value of the right kind for each field of its request.
-/

namespace PocketBasic

/-- The answer is what a field of the kind takes. -/
def Answer.Fits : FieldKind → Answer → Prop
  | .integer, .integer _ | .real, .real _ | .string, .string _ | .func _ _, .func _ => True
  | _, _ => False

variable {σ : Type} [Engine σ]

theorem Conversion.fits_answer {engine : σ} {text : List Char} {kind : FieldKind} {value : Answer}
    (converted : (answer engine text kind).1 = .ok value) : value.Fits kind := by
  have ofMap {α : Type} (f : α → Answer) {e : Except FieldError α} (fits : ∀ a, (f a).Fits kind)
      (mapped : e.map f = .ok value) : value.Fits kind := by
    cases e with
    | error => cases mapped
    | ok a =>
        cases mapped
        exact fits a
  cases kind with
  | integer => exact ofMap Answer.integer (fun _ => trivial) converted
  | real => exact ofMap Answer.real (fun _ => trivial) converted
  | string => exact ofMap Answer.string (fun _ => trivial) converted
  | func => exact ofMap Answer.func (fun _ => trivial) converted

namespace Slot

/-- What the slot holds is of its kind. -/
def Fitting (s : Slot) : Prop := ∀ value, s.value = some value → value.Fits s.kind

theorem fitting_ofKind (kind : FieldKind) : (ofKind kind).Fitting := by
  intro value held
  cases held

theorem kind_convert (s : Slot) (engine : σ) (text : List Char) :
    (s.convert engine text).1.kind = s.kind := by
  unfold convert
  split <;> rfl

theorem fitting_convert (s : Slot) (engine : σ) (text : List Char) :
    (s.convert engine text).1.Fitting := by
  unfold convert
  split
  · rename_i converted
    intro value held
    cases held
    exact Conversion.fits_answer (congrArg Prod.fst converted)
  · intro value held
    cases held

end Slot

namespace Session

/-- The slots are those of the fields, and what they hold is of their kinds. -/
structure Fitting (fields : List FieldKind) (slots : List Slot) : Prop where
  kinds : slots.map (·.kind) = fields
  values : ∀ slot ∈ slots, slot.Fitting

variable {fields : List FieldKind} {slots : List Slot}

theorem fitting_ofRequest (r : Request) : Fitting r.fields (ofRequest r).slots := by
  constructor
  · simp [ofRequest, Slot.ofKind, Function.comp_def]
  · intro slot member
    obtain ⟨kind, _, rfl⟩ := List.mem_map.mp member
    exact Slot.fitting_ofKind kind

namespace Fitting

theorem convertAll (fitting : Fitting fields slots) (engine : σ) (texts : List (List Char)) :
    Fitting fields (Session.convertAll engine slots texts).1 := by
  induction slots generalizing fields engine texts with
  | nil => exact fitting
  | cons slot rest ih =>
      obtain ⟨rfl, values⟩ := fitting
      rw [List.forall_mem_cons] at values
      have others := ih ⟨rfl, values.2⟩ (slot.convert engine (texts.headD [])).2 texts.tail
      constructor
      · simpa [Session.convertAll, Slot.kind_convert] using others.kinds
      · exact List.forall_mem_cons.mpr ⟨slot.fitting_convert engine _, others.values⟩

theorem set (fitting : Fitting fields slots) {index : Nat} {old new : Slot}
    (inside : slots[index]? = some old) (kind : new.kind = old.kind) (fits : new.Fitting) :
    Fitting fields (slots.set index new) := by
  constructor
  · rw [List.map_set, kind, ← fitting.kinds]
    refine List.ext_getElem? fun i => ?_
    rw [List.getElem?_set]
    split
    · rename_i same
      subst same
      obtain ⟨bound, entry⟩ := List.getElem?_eq_some_iff.mp inside
      simp [bound, entry]
    · rfl
  · intro slot member
    rcases List.mem_or_eq_of_mem_set member with before | rfl
    · exact fitting.values slot before
    · exact fits

theorem emptied (fitting : Fitting fields slots) :
    Fitting fields (slots.map fun slot => { slot with value := none }) := by
  constructor
  · rw [← fitting.kinds, List.map_map]
    rfl
  · intro slot member value held
    obtain ⟨_, _, rfl⟩ := List.mem_map.mp member
    cases held

theorem call {s : Session} (fitting : Fitting fields s.slots) (engine : σ) (c : Call) :
    Fitting fields (s.call engine c).1.slots := by
  cases c with
  | finish index text =>
      simp only [Session.call, Session.finish]
      cases s.state with
      | accepted | rejected => exact fitting
      | editing =>
          cases inside : s.slots[index]? with
          | none => exact fitting
          | some slot =>
              exact fitting.set inside (slot.kind_convert engine text) (slot.fitting_convert engine text)
  | submit texts =>
      simp only [Session.call, Session.submit]
      cases s.state with
      | accepted | rejected => exact fitting
      | editing => exact fitting.convertAll engine texts
  | cancel =>
      simp only [Session.call, Session.cancel]
      cases s.state with
      | accepted => exact fitting
      | editing | rejected => exact fitting.emptied

/-- An accepted session hands over a value of the right kind for each field. -/
theorem take {s : Session} {values : List Answer} (fitting : Fitting fields s.slots)
    (handed : s.take.1 = some values) : List.Forall₂ (fun kind value => value.Fits kind) fields values := by
  unfold Session.take at handed
  split at handed
  · dsimp only at handed
    generalize s.slots = slots at fitting handed
    induction slots generalizing fields values with
    | nil =>
        obtain ⟨rfl, _⟩ := fitting
        cases handed
        exact .nil
    | cons slot rest ih =>
        obtain ⟨rfl, fits⟩ := fitting
        rw [List.forall_mem_cons] at fits
        simp only [List.mapM_cons, bind, Option.bind_eq_some_iff, pure, Option.some.injEq] at handed
        obtain ⟨value, held, others, more, rfl⟩ := handed
        exact .cons (fits.1 value held) (ih ⟨rfl, fits.2⟩ more)
  · cases handed

end Fitting

end Session

end PocketBasic
