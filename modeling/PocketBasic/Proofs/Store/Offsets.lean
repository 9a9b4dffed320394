import Mathlib.Algebra.BigOperators.Group.List.Basic
import PocketBasic.Program.Statement
import PocketBasic.Proofs.Store.Operations

/-! # Offsets of array elements

The element count of an array and the offset of a subscript are computed apart, the one when the array is
dimensioned and the other each time it is used. Only the count is looked at: a program that dimensions an array
with more elements than 64 bits can count is broken off. That is enough for the offsets, which stay below it on
the way to every element.
-/

namespace PocketBasic

namespace Dimensions

variable {dims : Dimensions} {subs : Subscripts}

/-- The exact number of elements. -/
def extent (dims : Dimensions) : Nat := (dims.map fun bound => bound.toNat + 1).prod

/-- The place of an element in row-major order: each subscript counts as often as there are elements
    behind its axis. -/
def position : Dimensions → Subscripts → Nat
  | _ :: dims, sub :: subs => sub.toNat * extent dims + position dims subs
  | _, _ => 0

@[simp] theorem extent_nil : extent [] = 1 := rfl

@[simp] theorem extent_cons (bound : UInt16) (dims : Dimensions) :
    extent (bound :: dims) = (bound.toNat + 1) * extent dims := by
  simp [extent]

theorem extent_pos (dims : Dimensions) : 0 < dims.extent := by
  induction dims with
  | nil => simp
  | cons bound dims ih => simp [ih]

/-! ## What is computed -/

theorem foldl_axes (acc : Nat) (dims : Dimensions) :
    dims.foldl (fun acc bound => acc * (bound.toNat + 1)) acc = acc * dims.extent := by
  induction dims generalizing acc with
  | nil => simp
  | cons bound dims ih => rw [List.foldl_cons, ih, extent_cons, Nat.mul_assoc]

theorem elementCount_eq_extent (dims : Dimensions) : dims.elementCount = dims.extent := by
  rw [elementCount, foldl_axes, Nat.one_mul]

theorem offsetFrom_of_within (acc : Nat) (within : List.Forall₂ (· ≤ ·) subs dims) :
    offsetFrom acc dims subs = some (acc * dims.extent + dims.position subs) := by
  induction within generalizing acc with
  | nil => simp [offsetFrom, position]
  | @cons sub bound subs dims inside _ ih =>
      simp only [offsetFrom, if_pos inside, ih, position, extent_cons, Nat.add_mul, Nat.mul_assoc, Nat.add_assoc]

/-- An offset is the place of its element. -/
theorem offset?_eq_some_iff {i : Nat} :
    dims.offset? subs = some i ↔ List.Forall₂ (· ≤ ·) subs dims ∧ dims.position subs = i := by
  constructor
  · intro found
    have within := isSome_offset?.mp (Option.isSome_of_eq_some found)
    simp [offset?, offsetFrom_of_within 0 within] at found
    exact ⟨within, found⟩
  · rintro ⟨within, rfl⟩
    simp [offset?, offsetFrom_of_within 0 within]

/-! ## Places -/

theorem position_lt (within : List.Forall₂ (· ≤ ·) subs dims) : dims.position subs < dims.extent := by
  induction within with
  | nil => simp [position]
  | @cons sub bound subs dims inside _ ih =>
      have below : sub.toNat ≤ bound.toNat := UInt16.le_iff_toNat_le.mp inside
      calc position (bound :: dims) (sub :: subs)
          < sub.toNat * extent dims + extent dims := by simpa [position] using ih
        _ = (sub.toNat + 1) * extent dims := by rw [Nat.add_mul, Nat.one_mul]
        _ ≤ (bound.toNat + 1) * extent dims := Nat.mul_le_mul_right _ (by omega)
        _ = extent (bound :: dims) := (extent_cons bound dims).symm

theorem position_injective {other : Subscripts} (within : List.Forall₂ (· ≤ ·) subs dims)
    (beside : List.Forall₂ (· ≤ ·) other dims) (same : dims.position subs = dims.position other) :
    subs = other := by
  induction within generalizing other with
  | nil => cases beside; rfl
  | @cons sub bound subs dims inside within ih =>
      cases beside with
      | @cons sub' _ subs' _ inside' beside =>
          have rest := position_lt within
          have rest' := position_lt beside
          simp only [position] at same
          have digits : sub.toNat = sub'.toNat := by
            have := congrArg (· / extent dims) same
            simpa [Nat.mul_comm _ (extent dims), Nat.mul_add_div (extent_pos dims),
              Nat.div_eq_of_lt rest, Nat.div_eq_of_lt rest'] using this
          rw [digits] at same
          rw [UInt16.toNat.inj digits, ih beside (Nat.add_left_cancel same)]

theorem offset?_lt {i : Nat} (found : dims.offset? subs = some i) : i < dims.extent := by
  obtain ⟨within, rfl⟩ := offset?_eq_some_iff.mp found
  exact position_lt within

theorem offset?_injective {other : Subscripts} {i : Nat} (first : dims.offset? subs = some i)
    (second : dims.offset? other = some i) : subs = other := by
  obtain ⟨within, here⟩ := offset?_eq_some_iff.mp first
  obtain ⟨beside, there⟩ := offset?_eq_some_iff.mp second
  exact position_injective within beside (here.trans there.symm)

end Dimensions

namespace Store

variable {s later : Store} {name : String} {dims : Dimensions} {a : ArrayVar}

end Store

end PocketBasic
