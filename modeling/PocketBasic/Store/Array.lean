import PocketBasic.Value

/-! # Arrays

An array is given by its dimensions, each the largest subscript on its axis, and its elements in
row-major order. Elements are counted in 64-bit words, and a program that dimensions an array with more of
them is broken off. Offsets are below the count and need no more bits, so they are plain numbers here.
-/

namespace PocketBasic

/-- The largest subscript of each axis. -/
abbrev Dimensions := List UInt16

/-- One subscript for each axis. -/
abbrev Subscripts := List UInt16

namespace Dimensions

/-- The product of the axis lengths. -/
def elementCount (dims : Dimensions) : Nat :=
  dims.foldl (fun acc bound => acc * (bound.toNat + 1)) 1

/-- The elements can be counted in 64 bits. No axis is empty, so the product is too large exactly if it is
    so at some axis on the way. -/
def Countable (dims : Dimensions) : Prop :=
  dims.elementCount < UInt64.size

instance (dims : Dimensions) : Decidable dims.Countable :=
  inferInstanceAs (Decidable (_ < _))

/-- Row-major offset of the subscripts behind an offset already reached; `none` when there are too
    few or too many of them or one passes its bound. -/
def offsetFrom (acc : Nat) : Dimensions → Subscripts → Option Nat
  | [], [] => some acc
  | bound :: dims, sub :: subs =>
      if sub ≤ bound then offsetFrom (acc * (bound.toNat + 1) + sub.toNat) dims subs else none
  | _, _ => none

/-- Row-major offset of an element. -/
def offset? (dims : Dimensions) (subs : Subscripts) : Option Nat :=
  offsetFrom 0 dims subs

end Dimensions

/-- The elements of one array. -/
structure ArrayVar where
  dimensions : Dimensions
  values : Array Value

namespace ArrayVar

/-- An array of equal elements. -/
def replicate (dims : Dimensions) (value : Value) : ArrayVar :=
  ⟨dims, Array.replicate dims.elementCount value⟩

/-- The element at the subscripts. -/
def element? (a : ArrayVar) (subs : Subscripts) : Option Value :=
  a.dimensions.offset? subs |>.bind fun i => a.values[i]?

/-- The array with another element at the subscripts, if they are in range. -/
def set? (a : ArrayVar) (subs : Subscripts) (value : Value) : Option ArrayVar :=
  a.dimensions.offset? subs |>.map fun i => { a with values := a.values.setIfInBounds i value }

end ArrayVar

end PocketBasic
