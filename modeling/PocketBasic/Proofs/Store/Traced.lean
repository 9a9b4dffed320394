import PocketBasic.Proofs.Store.Typed
import PocketBasic.Proofs.Text.Codes
import PocketBasic.Proofs.Text.Traced

/-! # Control characters in a store

A store whose names and strings are traced stays so when traced values are put into it, and the complaint about
a value that cannot be put into it names only what it was asked for.
-/

namespace PocketBasic

variable {given : List Char}

/-- A string of the device, read as text, has no other control characters. -/
def DeviceString.Traced (given : List Char) (s : DeviceString) : Prop := Text.Traced given s.toText

def Value.Traced (given : List Char) : Value → Prop
  | .string s => s.Traced given
  | .integer _ | .real _ => True

theorem DeviceString.traced_asciiBytes {s : List Char} (traced : Text.Traced given s)
    (ascii : ∀ c ∈ s, c.toNat < 128) : DeviceString.Traced given ⟨Text.asciiBytes s⟩ := by
  rw [DeviceString.Traced, toText, Text.ofBytesLossy_asciiBytes ascii]
  exact traced

theorem Value.traced_zero (type : ValueType) : (zero type).Traced given := by
  cases type with
  | integer | real => trivial
  | string =>
      have none : Text.ofBytesLossy [] = [] := by simp [Text.ofBytesLossy, Text.decodeBytes]
      change Text.Traced given (Text.ofBytesLossy [])
      rw [none]
      exact Text.traced_nil

def BindingError.Traced (given : List Char) (e : BindingError) : Prop := Text.Traced given e.message.toList

theorem BindingError.traced_unknown {name : String} (traced : Text.Traced given name.toList) :
    (unknown name).Traced given := traced.behind (by decide)

theorem BindingError.traced_typeMismatch {name : String} (traced : Text.Traced given name.toList) :
    (typeMismatch name).Traced given := traced.behind (by decide)

theorem BindingError.traced_subscriptOutOfRange {name : String} (traced : Text.Traced given name.toList) :
    (subscriptOutOfRange name).Traced given := traced.behind (by decide)

/-- Names and strings have no control characters but those given. -/
structure Store.Traced (given : List Char) (s : Store) : Prop where
  scalars : ∀ name value, s.scalars.find? name = some value → Text.Traced given name.toList ∧ value.Traced given
  arrays : ∀ name a, s.arrays.find? name = some a →
    Text.Traced given name.toList ∧ ∀ value ∈ a.values, value.Traced given

namespace Store

variable {s later : Store} {name : String} {value : Value} {subs : Subscripts} {dims : Dimensions}

theorem traced_empty : empty.Traced given := by
  constructor
  all_goals
    intro name found entry
    cases entry

namespace Traced

theorem get? (traced : s.Traced given) (found : s.get? name = some value) : value.Traced given :=
  (traced.scalars name value found).2

theorem element? (traced : s.Traced given) (found : s.element? name subs = some value) : value.Traced given := by
  obtain ⟨a, bound, inside⟩ := Option.bind_eq_some_iff.mp found
  exact (traced.arrays name a bound).2 value (ArrayVar.mem_of_element? inside)

theorem insertScalar (traced : s.Traced given) (named : Text.Traced given name.toList) (new : value.Traced given) :
    Traced given { s with scalars := s.scalars.insert name value } :=
  ⟨NameTable.forall_insert traced.scalars ⟨named, new⟩, traced.arrays⟩

theorem insertArray (traced : s.Traced given) {a : ArrayVar} (named : Text.Traced given name.toList)
    (new : ∀ v ∈ a.values, v.Traced given) :
    Traced given { s with arrays := s.arrays.insert name a } :=
  ⟨traced.scalars, NameTable.forall_insert traced.arrays ⟨named, new⟩⟩

theorem assign (traced : s.Traced given) (named : Text.Traced given name.toList) (new : value.Traced given) :
    Meets (BindingError.Traced given) (Store.Traced given) (s.assign name value) := by
  unfold Store.assign
  split
  · exact traced.insertScalar named new
  · exact BindingError.traced_typeMismatch named

theorem modify (traced : s.Traced given) (named : Text.Traced given name.toList) (new : value.Traced given) :
    Meets (BindingError.Traced given) (Store.Traced given) (s.modify name value) := by
  unfold Store.modify
  split
  · exact BindingError.traced_unknown named
  · split
    · exact traced.insertScalar named new
    · exact BindingError.traced_typeMismatch named

theorem dim (traced : s.Traced given) (named : Text.Traced given name.toList)
    (bound : s.dim name dims = .bound later) : later.Traced given := by
  obtain ⟨_, _, rfl⟩ := dim_bound_iff.mp bound
  refine traced.insertArray named fun v member => ?_
  rw [ArrayVar.eq_of_mem_replicate member]
  exact Value.traced_zero _

theorem setElement (traced : s.Traced given) (named : Text.Traced given name.toList) (new : value.Traced given) :
    Meets (BindingError.Traced given) (Store.Traced given) (s.setElement name subs value) := by
  unfold Store.setElement
  split
  · exact BindingError.traced_unknown named
  · rename_i a bound
    split
    · split
      · rename_i changed
        refine traced.insertArray named fun v member => ?_
        rcases ArrayVar.mem_set? changed member with old | rfl
        · exact (traced.arrays name a bound).2 v old
        · exact new
      · exact BindingError.traced_subscriptOutOfRange named
    · exact BindingError.traced_typeMismatch named

end Traced

end Store

end PocketBasic
