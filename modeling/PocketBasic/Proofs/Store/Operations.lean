import Mathlib.Data.List.Forall2
import PocketBasic.Proofs.Store.Typed

/-! # Runs of store operations

Four operations change variables: programs assign, dimension and set elements, and the inspector modifies.
They check a type against the name, against the value that is there, or against the name before they look
at the subscripts. In every store that they lead to these checks come to the same, the bindings are listed
in order, and an operation that is refused has done nothing.
-/

namespace PocketBasic

namespace NameTable

variable {α β : Type} {table : NameTable α} {name : String} {value old : α}

theorem findIn_eq_some_iff {entries : List (String × α)} (ascending : Ascending entries) :
    findIn name entries = some value ↔ (name, value) ∈ entries := by
  induction entries with
  | nil => simp [findIn]
  | cons first rest ih =>
      obtain ⟨key, other⟩ := first
      obtain ⟨below, ascending⟩ := List.pairwise_cons.mp ascending
      by_cases here : key = name
      · subst here
        have once : ∀ v, (key, v) ∉ rest := fun v member => String.lt_irrefl _ (below (key, v) member)
        simp [findIn, once, eq_comm]
      · simp [findIn, here, ih ascending, Ne.symm here]

theorem find?_eq_some_iff : table.find? name = some value ↔ (name, value) ∈ table.entries :=
  findIn_eq_some_iff table.ascending

theorem map_insertIn {f : String × α → β} {entries : List (String × α)} (ascending : Ascending entries)
    (found : findIn name entries = some old) (same : f (name, value) = f (name, old)) :
    (insertIn name value entries).map f = entries.map f := by
  induction entries with
  | nil => simp [findIn] at found
  | cons first rest ih =>
      have whole := ascending
      obtain ⟨key, other⟩ := first
      obtain ⟨below, ascending⟩ := List.pairwise_cons.mp ascending
      simp only [insertIn]
      split
      · -- A name in front of the first one is not in the table.
        rename_i before
        rcases List.mem_cons.mp ((findIn_eq_some_iff whole).mp found) with here | later
        · obtain ⟨rfl, rfl⟩ := Prod.mk.inj here
          exact absurd before (String.lt_irrefl _)
        · exact absurd before (String.lt_asymm (below _ later))
      · split
        · rename_i here
          subst here
          simp [findIn] at found
          simp [found, same]
        · rename_i elsewhere
          simp [findIn, Ne.symm elsewhere] at found
          simp [ih ascending found]

/-- Putting another value under a name changes nothing but that value. -/
theorem map_insert_of_found {f : String × α → β} (found : table.find? name = some old)
    (same : f (name, value) = f (name, old)) :
    (table.insert name value).entries.map f = table.entries.map f :=
  map_insertIn table.ascending found same

/-- Putting a value in its own place changes nothing. -/
theorem insert_of_found (found : table.find? name = some value) : table.insert name value = table := by
  have same := map_insert_of_found (f := id) found rfl
  rw [List.map_id, List.map_id] at same
  exact (NameTable.mk.injEq ..).mpr same

theorem pairwise_names (table : NameTable α) : table.names.Pairwise (· < ·) :=
  List.pairwise_map.mpr table.ascending

end NameTable

namespace Dimensions

theorem isSome_offsetFrom {acc : Nat} {dims : Dimensions} {subs : Subscripts} :
    (offsetFrom acc dims subs).isSome = true ↔ List.Forall₂ (· ≤ ·) subs dims := by
  induction dims generalizing acc subs with
  | nil => cases subs <;> simp [offsetFrom]
  | cons bound dims ih =>
      cases subs with
      | nil => simp [offsetFrom]
      | cons sub subs => by_cases inside : sub ≤ bound <;> simp [offsetFrom, inside, ih]

/-- There is an element for one subscript an axis, none of which passes its bound. -/
theorem isSome_offset? {dims : Dimensions} {subs : Subscripts} :
    (dims.offset? subs).isSome = true ↔ List.Forall₂ (· ≤ ·) subs dims := by
  simp [offset?, isSome_offsetFrom]

end Dimensions

namespace Store

variable {s later : Store} {name : String} {value : Value} {dims : Dimensions}

/-! ## Bindings -/

theorem scalar_mem_bindings : .scalar name ∈ s.bindings ↔ ∃ value, s.get? name = some value := by
  simp [bindings, get?, NameTable.find?_eq_some_iff]

theorem array_mem_bindings :
    .array name dims ∈ s.bindings ↔ ∃ a, s.arrays.find? name = some a ∧ a.dimensions = dims := by
  simp [bindings, NameTable.find?_eq_some_iff]

theorem bindings_insertScalar_subset (s : Store) (name : String) (value : Value) :
    s.bindings ⊆ bindings { s with scalars := s.scalars.insert name value } := by
  intro binding bound
  cases binding with
  | scalar key =>
      obtain ⟨old, found⟩ := scalar_mem_bindings.mp bound
      refine scalar_mem_bindings.mpr ?_
      simp only [get?] at found ⊢
      rw [NameTable.find?_insert]
      split
      · exact ⟨value, rfl⟩
      · exact ⟨old, found⟩
  | array key dims => simpa [array_mem_bindings] using bound

theorem bindings_insertArray_subset (fresh : s.arrays.find? name = none) (a : ArrayVar) :
    s.bindings ⊆ bindings { s with arrays := s.arrays.insert name a } := by
  intro binding bound
  cases binding with
  | scalar key => simpa [scalar_mem_bindings, get?] using bound
  | array key dims =>
      obtain ⟨old, found, same⟩ := array_mem_bindings.mp bound
      have different : name ≠ key := by
        rintro rfl
        rw [fresh] at found
        cases found
      refine array_mem_bindings.mpr ⟨old, ?_, same⟩
      rw [NameTable.find?_insert, if_neg different]
      exact found

theorem bindings_insertScalar {old : Value} (found : s.scalars.find? name = some old) :
    bindings { s with scalars := s.scalars.insert name value } = s.bindings := by
  exact congrArg (· ++ _) (NameTable.map_insert_of_found found rfl)

theorem bindings_insertArray {a old : ArrayVar} (found : s.arrays.find? name = some old)
    (same : a.dimensions = old.dimensions) :
    bindings { s with arrays := s.arrays.insert name a } = s.bindings := by
  exact congrArg (_ ++ ·) (NameTable.map_insert_of_found found (congrArg (Binding.array name) same))

/-! ## Operations -/

/-- An operation that changes variables, with what it is given. -/
inductive Operation where
  | assign (name : String) (value : Value)
  | modify (name : String) (value : Value)
  | dim (name : String) (dimensions : Dimensions)
  | setElement (name : String) (subscripts : Subscripts) (value : Value)

/-- Why an operation is refused. -/
inductive Refusal where
  | binding (error : BindingError)
  /-- The name is dimensioned already. -/
  | dimensioned (name : String)
  /-- The array has more elements than can be counted. The program breaks off here. -/
  | uncountable (name : String)

/-- The operation may bind a name. -/
def Operation.binds : Operation → Bool
  | .assign _ _ | .dim _ _ => true
  | .modify _ _ | .setElement _ _ _ => false

def attempt (s : Store) : Operation → Except Refusal Store
  | .assign name value => (s.assign name value).mapError .binding
  | .modify name value => (s.modify name value).mapError .binding
  | .dim name dims =>
      match s.dim name dims with
      | .bound later => .ok later
      | .already => .error (.dimensioned name)
      | .uncountable => .error (.uncountable name)
  | .setElement name subs value => (s.setElement name subs value).mapError .binding

/-- The store goes on from what an operation makes of it, or from where it was. -/
def perform (s : Store) (o : Operation) : Option Refusal × Store :=
  match s.attempt o with
  | .ok later => (none, later)
  | .error refusal => (some refusal, s)

def performAll (s : Store) (os : List Operation) : Store :=
  os.foldl (fun s o => (s.perform o).2) s

/-- What an operation asks for: a value of the type that its name gives, bindings, and no more elements than
    can be counted. -/
def Admits (s : Store) : Operation → Prop
  | .assign name value => value.type = .ofName name
  | .modify name value => .scalar name ∈ s.bindings ∧ value.type = .ofName name
  | .dim name dims => (∀ dims, .array name dims ∉ s.bindings) ∧ dims.Countable
  | .setElement name subs value =>
      value.type = .ofName name ∧
        ∃ dims, .array name dims ∈ s.bindings ∧ List.Forall₂ (· ≤ ·) subs dims

variable {o : Operation}

theorem perform_ok (done : s.attempt o = .ok later) : s.perform o = (none, later) := by
  simp only [perform, done]

theorem perform_error {refusal : Refusal} (refused : s.attempt o = .error refusal) :
    s.perform o = (some refusal, s) := by
  simp only [perform, refused]

theorem ok_of_mapError {ε φ : Type} {f : ε → φ} {x : Except ε Store} (mapped : x.mapError f = .ok later) :
    x = .ok later := by
  cases x with
  | error => cases mapped
  | ok other => exact congrArg _ (Except.ok.inj mapped)

theorem dim_of_attempt (done : s.attempt (.dim name dims) = .ok later) : s.dim name dims = .bound later := by
  cases made : s.dim name dims with
  | bound other =>
      simp only [attempt, made] at done
      exact congrArg _ (Except.ok.inj done)
  | already | uncountable => simp [attempt, made] at done

/-- What an operation makes of a store. -/
inductive Attempted (s : Store) : Operation → Store → Prop where
  | assign {name : String} {value : Value} (fits : value.type = .ofName name) :
      Attempted s (.assign name value) { s with scalars := s.scalars.insert name value }
  | modify {name : String} {value old : Value} (found : s.scalars.find? name = some old)
      (same : old.type = value.type) :
      Attempted s (.modify name value) { s with scalars := s.scalars.insert name value }
  | dim {name : String} {dims : Dimensions} (fresh : s.arrays.find? name = none) (countable : dims.Countable) :
      Attempted s (.dim name dims)
        { s with arrays := s.arrays.insert name (.replicate dims (.zero (.ofName name))) }
  | setElement {name : String} {subs : Subscripts} {value : Value} {a : ArrayVar} {i : Nat}
      (found : s.arrays.find? name = some a) (offset : a.dimensions.offset? subs = some i)
      (fits : value.type = .ofName name) :
      Attempted s (.setElement name subs value)
        { s with arrays := s.arrays.insert name { a with values := a.values.setIfInBounds i value } }

theorem attempted (done : s.attempt o = .ok later) : s.Attempted o later := by
  cases o with
  | assign name value =>
      obtain ⟨fits, rfl⟩ := assign_ok (ok_of_mapError done)
      exact .assign fits
  | modify name value =>
      obtain ⟨old, found, same, rfl⟩ := modify_ok (ok_of_mapError done)
      exact .modify found same
  | dim name dims =>
      obtain ⟨fresh, countable, rfl⟩ := dim_bound_iff.mp (dim_of_attempt done)
      exact .dim fresh countable
  | setElement name subs value =>
      obtain ⟨a, i, found, offset, fits, rfl⟩ := setElement_ok (ok_of_mapError done)
      exact .setElement found offset fits

theorem bindings_attempt (done : s.attempt o = .ok later) (kept : o.binds = false) :
    later.bindings = s.bindings := by
  cases attempted done with
  | assign | dim => cases kept
  | modify found => exact bindings_insertScalar found
  | setElement found => exact bindings_insertArray found rfl

theorem bindings_subset_attempt (done : s.attempt o = .ok later) : s.bindings ⊆ later.bindings := by
  cases attempted done with
  | assign => exact bindings_insertScalar_subset s _ _
  | dim fresh => exact bindings_insertArray_subset fresh _
  | modify | setElement =>
      rw [bindings_attempt done rfl]
      exact List.Subset.refl _

theorem Typed.attempt (typed : s.Typed) (done : s.attempt o = .ok later) : later.Typed := by
  cases o with
  | assign name value =>
      obtain ⟨fits, rfl⟩ := assign_ok (ok_of_mapError done)
      exact typed.insertScalar fits
  | modify name value => exact typed.modify (ok_of_mapError done)
  | dim name dims => exact typed.dim (dim_of_attempt done)
  | setElement name subs value => exact typed.setElement (ok_of_mapError done)

/-- In a typed store the value that is there has the type that the name gives, so it does not matter which of
    the two a check asks. -/
theorem Typed.attempt_ok_iff (typed : s.Typed) : (∃ later, s.attempt o = .ok later) ↔ s.Admits o := by
  cases o with
  | assign name value =>
      by_cases fits : ValueType.ofName name = value.type <;>
        simp [Store.attempt, Store.assign, Admits, fits, Except.mapError, Ne.symm]
  | modify name value =>
      simp only [Store.attempt, Store.modify, Admits, scalar_mem_bindings, Store.get?]
      cases found : s.scalars.find? name with
      | none => simp [Except.mapError]
      | some old =>
          simp only [typed.scalars name old found]
          by_cases fits : ValueType.ofName name = value.type <;> simp [fits, Except.mapError, Ne.symm]
  | dim name dims =>
      simp only [Store.attempt, Store.dim, Admits, array_mem_bindings]
      cases found : s.arrays.find? name with
      | some a => simp
      | none => by_cases countable : dims.Countable <;> simp [countable]
  | setElement name subs value =>
      simp only [Store.attempt, Store.setElement, Admits, array_mem_bindings]
      cases found : s.arrays.find? name with
      | none => simp [Except.mapError]
      | some a =>
          by_cases fits : ValueType.ofName name = value.type
          · have range : (a.dimensions.offset? subs).isSome = true ↔ List.Forall₂ (· ≤ ·) subs a.dimensions :=
              Dimensions.isSome_offset?
            cases offset : a.dimensions.offset? subs <;>
              simp_all [Except.mapError, ArrayVar.set?]
          · simp [fits, Except.mapError, Ne.symm fits]

theorem Typed.perform (typed : s.Typed) (o : Operation) : (s.perform o).2.Typed := by
  cases done : s.attempt o with
  | error refusal => rwa [perform_error done]
  | ok later =>
      rw [perform_ok done]
      exact typed.attempt done

theorem Typed.performAll (typed : s.Typed) (os : List Operation) : (s.performAll os).Typed := by
  induction os generalizing s with
  | nil => exact typed
  | cons o rest ih => exact ih (typed.perform o)

/-- After any operations, refused ones among them: every value has the type of its name; the bindings are the
    scalars and then the arrays, each once and in name order; the next operation is refused exactly if it asks
    for what is not so, and then it leaves the store as it is; it never takes a binding away, and adds one only
    by assigning and dimensioning. -/
theorem bindings_of_performAll (os : List Operation) :
    let s := empty.performAll os
    s.Typed ∧
      (∃ (scalars : List String) (arrays : List (String × Dimensions)),
        s.bindings = scalars.map .scalar ++ arrays.map (fun a => .array a.1 a.2) ∧
        scalars.Pairwise (· < ·) ∧ (arrays.map (·.1)).Pairwise (· < ·) ∧
        (∀ name, name ∈ scalars ↔ ∃ value, s.get? name = some value) ∧
        ∀ name dims, (name, dims) ∈ arrays ↔ ∃ a, s.arrays.find? name = some a ∧ a.dimensions = dims) ∧
      ∀ o, ((s.perform o).1 = none ↔ s.Admits o) ∧
        ((s.perform o).1 ≠ none → (s.perform o).2 = s) ∧
        s.bindings ⊆ (s.perform o).2.bindings ∧
        (o.binds = false → (s.perform o).2.bindings = s.bindings) := by
  intro s
  have typed : s.Typed := typed_empty.performAll os
  refine ⟨typed, ⟨s.scalars.names, s.arrays.entries.map fun entry => (entry.1, entry.2.dimensions), ?_,
    s.scalars.pairwise_names, ?_, fun name => ?_, fun name dims => ?_⟩, fun o => ?_⟩
  · simp [bindings, NameTable.names, Function.comp_def]
  · simpa [Function.comp_def, NameTable.names] using s.arrays.pairwise_names
  · simp [NameTable.names, get?, NameTable.find?_eq_some_iff]
  · simp [NameTable.find?_eq_some_iff]
  · rw [← typed.attempt_ok_iff]
    cases done : s.attempt o with
    | error refusal => simp [perform_error done]
    | ok later =>
        rw [perform_ok done]
        refine ⟨by simp, by simp, bindings_subset_attempt done, bindings_attempt done⟩

end Store

end PocketBasic
