import Mathlib.Data.List.Nodup
import PocketBasic.Inspector.Rows
import PocketBasic.Proofs.Store.Offsets

/-! # Elements of arrays

The subscripts at an offset are found by division, from the last axis on; the offset of subscripts is summed up
from the first. Each undoes the other, so that the elements that are listed are those that are stored, in the
order in which they are stored. No two share a place, so setting one of them is an update of a finite map.
-/

namespace PocketBasic

namespace Dimensions

variable {dims : Dimensions} {subs : Subscripts}

/-! ## Subscripts at an offset -/

/-- What is left of an offset for the axes further in front. -/
theorem foldr_axes (dims : Dimensions) (offset : Nat) :
    (dims.foldr (fun bound (rest, subs) =>
      let extent := bound.toNat + 1
      (rest / extent, (rest % extent).toUInt16 :: subs)) (offset, ([] : Subscripts))).1 =
        offset / dims.extent := by
  induction dims with
  | nil => simp
  | cons bound dims ih =>
      rw [List.foldr_cons]
      dsimp only
      rw [ih, extent_cons, Nat.div_div_eq_div_mul, Nat.mul_comm]

theorem subscriptsAt_cons (bound : UInt16) (dims : Dimensions) (offset : Nat) :
    subscriptsAt (bound :: dims) offset =
      (offset / dims.extent % (bound.toNat + 1)).toUInt16 :: subscriptsAt dims offset := by
  rw [← foldr_axes]
  rfl

theorem toNat_toUInt16_mod (n : Nat) (bound : UInt16) :
    (n % (bound.toNat + 1)).toUInt16.toNat = n % (bound.toNat + 1) := by
  have below := Nat.mod_lt n (Nat.succ_pos bound.toNat)
  have small := bound.toNat_lt
  exact UInt16.toNat_ofNat_of_lt' (Nat.lt_of_lt_of_le below small)

theorem within_subscriptsAt (dims : Dimensions) (offset : Nat) :
    List.Forall₂ (· ≤ ·) (dims.subscriptsAt offset) dims := by
  induction dims with
  | nil => exact .nil
  | cons bound dims ih =>
      rw [subscriptsAt_cons]
      refine .cons ?_ ih
      rw [UInt16.le_iff_toNat_le, toNat_toUInt16_mod]
      exact Nat.le_of_lt_succ (Nat.mod_lt _ (Nat.succ_pos _))

theorem position_subscriptsAt (dims : Dimensions) (offset : Nat) :
    dims.position (dims.subscriptsAt offset) = offset % dims.extent := by
  induction dims with
  | nil => simp [position, Nat.mod_one]
  | cons bound dims ih =>
      rw [subscriptsAt_cons, position, toNat_toUInt16_mod, ih, extent_cons, Nat.mul_comm (bound.toNat + 1),
        Nat.mod_mul, Nat.mul_comm, Nat.add_comm]

theorem offset?_subscriptsAt {offset : Nat} (below : offset < dims.extent) :
    dims.offset? (dims.subscriptsAt offset) = some offset := by
  refine offset?_eq_some_iff.mpr ⟨within_subscriptsAt dims offset, ?_⟩
  rw [position_subscriptsAt, Nat.mod_eq_of_lt below]

/-! ## The elements that are listed -/

/-- The elements are listed in the order of their offsets, and none is left out. -/
theorem getElem?_elements (limit k : Nat) :
    (dims.elements limit)[k]? = some subs ↔ k < limit ∧ dims.offset? subs = some k := by
  simp only [elements, elementCount_eq_extent, List.getElem?_map, Option.map_eq_some_iff,
    List.getElem?_eq_some_iff, List.length_range, List.getElem_range, exists_prop]
  constructor
  · rintro ⟨_, ⟨listed, rfl⟩, rfl⟩
    exact ⟨by omega, offset?_subscriptsAt (by omega)⟩
  · rintro ⟨below, offset⟩
    have inside := offset?_lt offset
    exact ⟨k, ⟨by omega, rfl⟩, offset?_injective (offset?_subscriptsAt inside) offset⟩

theorem mem_elements_iff : subs ∈ dims.elements dims.extent ↔ List.Forall₂ (· ≤ ·) subs dims := by
  simp only [List.mem_iff_getElem?, getElem?_elements, offset?_eq_some_iff]
  constructor
  · rintro ⟨_, _, within, _⟩
    exact within
  · exact fun within => ⟨dims.position subs, position_lt within, within, rfl⟩

theorem nodup_elements (dims : Dimensions) (limit : Nat) : (dims.elements limit).Nodup := by
  refine List.Nodup.map_on (fun k inside l inside' same => ?_) List.nodup_range
  rw [List.mem_range, elementCount_eq_extent] at inside inside'
  have offset : dims.offset? (dims.subscriptsAt k) = some k := offset?_subscriptsAt (by omega)
  rw [same, offset?_subscriptsAt (by omega)] at offset
  exact (Option.some.inj offset).symm

end Dimensions

/-- Every array has as many elements as its dimensions multiply to. -/
def Store.Sized (s : Store) : Prop :=
  ∀ name a, s.arrays.find? name = some a → a.values.size = a.dimensions.extent

namespace Store

variable {s later : Store} {name : String} {subs : Subscripts} {value : Value} {dims : Dimensions}

/-! ## Sizes -/

theorem sized_empty : empty.Sized := by
  intro name a found
  cases found

theorem Sized.insert {a : ArrayVar} (sized : s.Sized)
    (size : a.values.size = a.dimensions.extent) :
    Sized { s with arrays := s.arrays.insert name a } :=
  NameTable.forall_insert (p := fun _ (a : ArrayVar) => a.values.size = a.dimensions.extent) sized size

theorem Sized.attempt {o : Operation} (sized : s.Sized) (done : s.attempt o = .ok later) : later.Sized := by
  cases attempted done with
  | assign | modify => exact sized
  | @dim _ dims => exact sized.insert ((Array.size_replicate ..).trans dims.elementCount_eq_extent)
  | setElement found => exact sized.insert ((Array.size_setIfInBounds ..).trans (sized _ _ found))

theorem Sized.perform (sized : s.Sized) (o : Operation) : (s.perform o).2.Sized := by
  cases done : s.attempt o with
  | error refusal => rwa [perform_error done]
  | ok later =>
      rw [perform_ok done]
      exact sized.attempt done

theorem Sized.performAll (sized : s.Sized) (os : List Operation) : (s.performAll os).Sized := by
  induction os generalizing s with
  | nil => exact sized
  | cons o rest ih => exact ih (sized.perform o)

/-! ## Reading and writing elements -/

theorem element?_eq_getElem? {a : ArrayVar} (found : s.arrays.find? name = some a)
    {other : Subscripts} : s.element? name other = (a.dimensions.offset? other).bind (a.values[·]?) := by
  simp only [element?, found, Option.bind_some, ArrayVar.element?]

/-- What is found at an offset among the elements can be read. -/
theorem exists_element?_subscriptsAt (sized : s.Sized) (bound : .array name dims ∈ s.bindings) {k : Nat}
    (below : k < dims.extent) : ∃ value, s.element? name (dims.subscriptsAt k) = some value := by
  obtain ⟨a, found, rfl⟩ := array_mem_bindings.mp bound
  rw [← sized name a found] at below
  refine ⟨a.values[k], ?_⟩
  rw [element?_eq_getElem? found, Dimensions.offset?_subscriptsAt (by rwa [← sized name a found])]
  exact Array.getElem?_eq_getElem below

/-- There is an element for all subscripts within the bounds. -/
theorem isSome_element? (sized : s.Sized) (bound : .array name dims ∈ s.bindings) :
    (s.element? name subs).isSome = true ↔ List.Forall₂ (· ≤ ·) subs dims := by
  obtain ⟨a, found, rfl⟩ := array_mem_bindings.mp bound
  rw [element?_eq_getElem? found, ← Dimensions.isSome_offset?]
  cases offset : a.dimensions.offset? subs with
  | none => rfl
  | some i =>
      have below : i < a.values.size := by
        rw [sized name a found]
        exact Dimensions.offset?_lt offset
      simp [below]

/-- Of the elements of an array, the one that is set has the value, and no other is changed. -/
theorem element?_setElement (sized : s.Sized) (done : s.setElement name subs value = .ok later)
    (other : Subscripts) :
    later.element? name other = if other = subs then some value else s.element? name other := by
  obtain ⟨a, i, found, offset, _, rfl⟩ := setElement_ok done
  have changed (b : ArrayVar) : (s.arrays.insert name b).find? name = some b := by
    rw [NameTable.find?_insert, if_pos rfl]
  have below : i < a.values.size := by
    rw [sized name a found]
    exact Dimensions.offset?_lt offset
  rw [element?_eq_getElem? found, element?_eq_getElem? (changed _)]
  by_cases same : other = subs
  · subst same
    simp [offset, below]
  · rw [if_neg same]
    cases place : a.dimensions.offset? other with
    | none => rfl
    | some j =>
        have apart : i ≠ j := by
          rintro rfl
          exact same (Dimensions.offset?_injective place offset)
        simp [Array.getElem?_setIfInBounds, apart]

/-- Nothing but the one array is changed when an element is set, and what is bound stays bound. -/
theorem others_of_setElement (done : s.setElement name subs value = .ok later) :
    later.scalars = s.scalars ∧ later.bindings = s.bindings ∧
      ∀ key, key ≠ name → later.arrays.find? key = s.arrays.find? key := by
  obtain ⟨a, i, found, _, _, rfl⟩ := setElement_ok done
  refine ⟨rfl, bindings_insertArray found rfl, fun key other => ?_⟩
  rw [NameTable.find?_insert, if_neg (Ne.symm other)]

theorem setElement_of_within (bound : .array name dims ∈ s.bindings) (fits : value.type = .ofName name)
    (within : List.Forall₂ (· ≤ ·) subs dims) : ∃ later, s.setElement name subs value = .ok later := by
  obtain ⟨a, found, rfl⟩ := array_mem_bindings.mp bound
  obtain ⟨i, offset⟩ := Option.isSome_iff_exists.mp (Dimensions.isSome_offset?.mpr within)
  simp [setElement, found, fits, ArrayVar.set?, offset]

theorem setElement_of_outside (bound : .array name dims ∈ s.bindings) (fits : value.type = .ofName name)
    (outside : ¬List.Forall₂ (· ≤ ·) subs dims) :
    s.setElement name subs value = .error (.subscriptOutOfRange name) := by
  obtain ⟨a, found, rfl⟩ := array_mem_bindings.mp bound
  rw [← Dimensions.isSome_offset?, Bool.not_eq_true, Option.isSome_eq_false_iff, Option.isNone_iff_eq_none]
    at outside
  simp [setElement, found, fits, ArrayVar.set?, outside]

/-- Dimensions whose elements 64 bits can count, as they can those of every array: listed are all subscripts
    within the bounds, each once, each at its row-major offset. An array of these dimensions, in any store that
    operations lead to, is a map from them to values: one of the right type is stored under such subscripts,
    nothing else is changed by that, and no others are accepted. -/
theorem arrays_are_maps (dims : Dimensions) (_ : dims.extent < 2 ^ 64) :
    (∀ limit k subs, (dims.elements limit)[k]? = some subs ↔ k < limit ∧ dims.offset? subs = some k) ∧
      (dims.elements dims.extent).Nodup ∧
      (∀ subs, subs ∈ dims.elements dims.extent ↔ List.Forall₂ (· ≤ ·) subs dims) ∧
      ∀ os name, .array name dims ∈ (empty.performAll os).bindings →
        let s := empty.performAll os
        (∀ subs, s.element? name subs = none ↔ ¬List.Forall₂ (· ≤ ·) subs dims) ∧
        ∀ subs value, value.type = .ofName name →
          (List.Forall₂ (· ≤ ·) subs dims → ∃ later, s.setElement name subs value = .ok later ∧
            (∀ other, later.element? name other = if other = subs then some value else s.element? name other) ∧
            later.scalars = s.scalars ∧ later.bindings = s.bindings ∧
            ∀ key, key ≠ name → later.arrays.find? key = s.arrays.find? key) ∧
          (¬List.Forall₂ (· ≤ ·) subs dims →
            s.setElement name subs value = .error (.subscriptOutOfRange name)) := by
  refine ⟨fun limit k subs => Dimensions.getElem?_elements limit k, dims.nodup_elements _,
    fun subs => Dimensions.mem_elements_iff, fun os name bound => ?_⟩
  have sized : (empty.performAll os).Sized := sized_empty.performAll os
  refine ⟨fun subs => ?_, fun subs value fits => ⟨fun within => ?_, setElement_of_outside bound fits⟩⟩
  · rw [← isSome_element? sized bound, Bool.not_eq_true, Option.isSome_eq_false_iff, Option.isNone_iff_eq_none]
  · obtain ⟨later, done⟩ := setElement_of_within bound fits within
    exact ⟨later, done, element?_setElement sized done, others_of_setElement done⟩

theorem arrays_are_maps_written :
    let dims : Dimensions := [1, 2]
    let s := empty.performAll [.dim "B%" dims, .setElement "B%" [0, 2] (.integer 5)]
    dims.elements dims.extent = [[0, 0], [0, 1], [0, 2], [1, 0], [1, 1], [1, 2]] ∧
      (dims.elements dims.extent).Nodup ∧ s.element? "B%" [0, 2] = some (.integer 5) ∧
      (∃ later, s.setElement "B%" [1, 0] (.integer 9) = .ok later ∧
        later.element? "B%" [1, 0] = some (.integer 9) ∧ later.element? "B%" [0, 2] = some (.integer 5)) ∧
      s.setElement "B%" [0, 3] (.integer 1) = .error (.subscriptOutOfRange "B%") ∧
      s.element? "B%" [2, 0] = none := by
  intro dims s
  have exact : dims.extent < 2 ^ 64 := by decide
  have bound : .array "B%" dims ∈ s.bindings := by decide
  have before : s.element? "B%" [0, 2] = some (.integer 5) := by decide
  obtain ⟨_, once, _, stored⟩ := arrays_are_maps dims exact
  obtain ⟨outside, written⟩ := stored _ "B%" bound
  obtain ⟨later, done, elements, _⟩ := (written [1, 0] (.integer 9) rfl).1 (by decide)
  refine ⟨by decide, once, before, ⟨later, done, elements _, ?_⟩, (written _ _ rfl).2 (by decide), ?_⟩
  · rw [elements]
    exact before
  · exact (outside _).mpr (by decide)

end Store

end PocketBasic
