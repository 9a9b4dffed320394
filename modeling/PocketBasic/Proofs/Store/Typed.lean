import PocketBasic.Store

/-! # Typed stores

The name of a variable gives its type. A store in which every value has the type of its name stays so
whatever is done to it, and an assignment of the right type cannot fail.
-/

namespace PocketBasic

namespace NameTable

variable {α : Type}

theorem findIn_insertIn (name key : String) (value : α) (entries : List (String × α)) :
    findIn key (insertIn name value entries) =
      if name = key then some value else findIn key entries := by
  induction entries with
  | nil => rfl
  | cons first rest ih =>
      obtain ⟨other, old⟩ := first
      simp only [insertIn]
      split
      · rfl
      · split
        · rename_i same
          subst same
          by_cases here : name = key <;> simp [findIn, here]
        · rename_i different
          by_cases here : other = key
          · have elsewhere : name ≠ key := fun same => different (same.trans here.symm)
            simp [findIn, here, elsewhere]
          · simp [findIn, here, ih]

theorem find?_insert (table : NameTable α) (name key : String) (value : α) :
    (table.insert name value).find? key = if name = key then some value else table.find? key :=
  findIn_insertIn name key value table.entries

/-- What holds of every value under its name holds still when it holds of the value that is put in. -/
theorem forall_insert {p : String → α → Prop} {table : NameTable α} {name : String} {value : α}
    (all : ∀ key old, table.find? key = some old → p key old) (new : p name value) :
    ∀ key found, (table.insert name value).find? key = some found → p key found := by
  intro key found entry
  rw [find?_insert] at entry
  split at entry
  · rename_i same
    subst same
    rw [← Option.some.inj entry]
    exact new
  · exact all key found entry

end NameTable

namespace ArrayVar

variable {a other : ArrayVar} {subs : Subscripts} {value : Value}

theorem mem_of_element? (found : a.element? subs = some value) : value ∈ a.values := by
  obtain ⟨i, _, inside⟩ := Option.bind_eq_some_iff.mp found
  exact Array.mem_of_getElem? inside

theorem mem_set? (changed : a.set? subs value = some other) {v : Value} (member : v ∈ other.values) :
    v ∈ a.values ∨ v = value := by
  obtain ⟨i, _, rfl⟩ := Option.map_eq_some_iff.mp changed
  exact Array.mem_or_eq_of_mem_setIfInBounds member

theorem set?_of_found (found : a.element? subs = some value) : a.set? subs value = some a := by
  obtain ⟨k, offset, there⟩ := Option.bind_eq_some_iff.mp found
  obtain ⟨below, rfl⟩ := Array.getElem?_eq_some_iff.mp there
  rw [set?, offset, Option.map_some, Array.setIfInBounds_def, dif_pos below, Array.set_getElem_self]

theorem eq_of_mem_replicate {dims : Dimensions} {v : Value} (member : v ∈ (replicate dims value).values) :
    v = value :=
  (Array.mem_replicate.mp member).2

end ArrayVar

/-- Every value is of the type that its name gives. -/
structure Store.Typed (s : Store) : Prop where
  scalars : ∀ name value, s.scalars.find? name = some value → value.type = .ofName name
  arrays : ∀ name a, s.arrays.find? name = some a → ∀ value ∈ a.values, value.type = .ofName name

namespace Store

variable {s later : Store} {name : String} {value : Value} {subs : Subscripts} {dims : Dimensions}

/-! ## What the operations do -/

theorem assign_ok (done : s.assign name value = .ok later) :
    value.type = .ofName name ∧ later = { s with scalars := s.scalars.insert name value } := by
  unfold assign at done
  split at done <;> cases done
  exact ⟨Eq.symm ‹_›, rfl⟩

theorem modify_ok (done : s.modify name value = .ok later) :
    ∃ old, s.scalars.find? name = some old ∧ old.type = value.type ∧
      later = { s with scalars := s.scalars.insert name value } := by
  unfold modify at done
  split at done
  · cases done
  · rename_i old found
    split at done <;> cases done
    exact ⟨old, found, ‹_›, rfl⟩

theorem dim_bound_iff : s.dim name dims = .bound later ↔
    s.arrays.find? name = none ∧ dims.Countable ∧
      later = { s with arrays := s.arrays.insert name (.replicate dims (.zero (.ofName name))) } := by
  unfold dim
  cases s.arrays.find? name with
  | some a => simp
  | none => by_cases countable : dims.Countable <;> simp [countable, eq_comm]

theorem dim_already_iff : s.dim name dims = .already ↔ ∃ a, s.arrays.find? name = some a := by
  unfold dim
  cases s.arrays.find? name with
  | some a => simp
  | none => by_cases countable : dims.Countable <;> simp [countable]

theorem setElement_ok (done : s.setElement name subs value = .ok later) :
    ∃ a i, s.arrays.find? name = some a ∧ a.dimensions.offset? subs = some i ∧ value.type = .ofName name ∧
      later = { s with
        arrays := s.arrays.insert name { a with values := a.values.setIfInBounds i value } } := by
  unfold setElement at done
  split at done
  · cases done
  · rename_i a found
    split at done
    · rename_i fits
      split at done <;> cases done
      rename_i b set
      obtain ⟨i, offset, rfl⟩ := Option.map_eq_some_iff.mp set
      exact ⟨a, i, found, offset, fits.symm, rfl⟩
    · cases done

/-! ## Types -/

theorem typed_empty : empty.Typed := by
  constructor
  all_goals
    intro name found entry
    cases entry

namespace Typed

theorem get? (typed : s.Typed) (found : s.get? name = some value) : value.type = .ofName name :=
  typed.scalars name value found

theorem element? (typed : s.Typed) (found : s.element? name subs = some value) :
    value.type = .ofName name := by
  obtain ⟨a, bound, inside⟩ := Option.bind_eq_some_iff.mp found
  exact typed.arrays name a bound value (ArrayVar.mem_of_element? inside)

theorem insertScalar (typed : s.Typed) (fits : value.type = .ofName name) :
    Typed { s with scalars := s.scalars.insert name value } :=
  ⟨NameTable.forall_insert typed.scalars fits, typed.arrays⟩

theorem insertArray (typed : s.Typed) {a : ArrayVar} (fits : ∀ v ∈ a.values, v.type = .ofName name) :
    Typed { s with arrays := s.arrays.insert name a } :=
  ⟨typed.scalars, NameTable.forall_insert (p := fun key (a : ArrayVar) =>
    ∀ v ∈ a.values, v.type = .ofName key) typed.arrays fits⟩

/-- A value of the right type is assigned, whatever the store holds. -/
theorem assign (typed : s.Typed) (fits : value.type = .ofName name) :
    ∃ later, s.assign name value = .ok later ∧ later.Typed :=
  ⟨_, if_pos fits.symm, typed.insertScalar fits⟩

theorem modify (typed : s.Typed) (modified : s.modify name value = .ok later) : later.Typed := by
  obtain ⟨old, bound, same, rfl⟩ := modify_ok modified
  exact typed.insertScalar (same.symm.trans (typed.scalars name old bound))

theorem dim (typed : s.Typed) (bound : s.dim name dims = .bound later) : later.Typed := by
  obtain ⟨_, _, rfl⟩ := dim_bound_iff.mp bound
  refine typed.insertArray fun v member => ?_
  rw [ArrayVar.eq_of_mem_replicate member, Value.type_zero]

theorem setElement (typed : s.Typed) (changed : s.setElement name subs value = .ok later) :
    later.Typed := by
  obtain ⟨a, i, bound, _, fits, rfl⟩ := setElement_ok changed
  refine typed.insertArray fun v member => ?_
  rcases Array.mem_or_eq_of_mem_setIfInBounds member with old | rfl
  · exact typed.arrays name a bound v old
  · exact fits

end Typed

/-- Why an element of the right type is not set. -/
theorem setElement_error {error : BindingError} (fits : value.type = .ofName name)
    (refused : s.setElement name subs value = .error error) :
    s.arrays.find? name = none ∧ error = .unknown name ∨
      ∃ a, s.arrays.find? name = some a ∧ a.dimensions.offset? subs = none ∧
        error = .subscriptOutOfRange name := by
  unfold setElement at refused
  split at refused
  · rename_i unbound
    cases refused
    exact .inl ⟨unbound, rfl⟩
  · rename_i a bound
    rw [if_pos fits.symm] at refused
    split at refused
    · cases refused
    · rename_i outside
      cases refused
      exact .inr ⟨a, bound, Option.map_eq_none_iff.mp outside, rfl⟩

end Store

end PocketBasic
