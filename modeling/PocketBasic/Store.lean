import PocketBasic.Store.Array
import PocketBasic.Store.NameTable

/-! # Variables of a program

Scalars and arrays under their names. A scalar and an array of one name are two different things.
Every operation that fails leaves the store as it was, since it returns no new one.
-/

namespace PocketBasic

/-- A variable or array that a program has bound. -/
inductive Binding where
  | scalar (name : String)
  | array (name : String) (dimensions : Dimensions)
  deriving Repr, DecidableEq

namespace Binding

def name : Binding → String
  | .scalar name => name
  | .array name _ => name

/-- The type of the variable, or of the array's elements. -/
def type (b : Binding) : ValueType := .ofName b.name

end Binding

/-- Why a value was not stored. -/
inductive BindingError where
  /-- Nothing is bound to the name. -/
  | unknown (name : String)
  /-- The value is not of the type that the name gives. -/
  | typeMismatch (name : String)
  /-- The array has no element at the subscripts. -/
  | subscriptOutOfRange (name : String)
  deriving Repr, DecidableEq

namespace BindingError

def message : BindingError → String
  | .unknown name => "no variable named " ++ name
  | .typeMismatch name => "type mismatch for " ++ name
  | .subscriptOutOfRange name => "subscript out of range for " ++ name

end BindingError

/-- The scalars and arrays of a program. -/
structure Store where
  scalars : NameTable Value
  arrays : NameTable ArrayVar

namespace Store

/-- The store before the program binds anything. -/
def empty : Store := ⟨.empty, .empty⟩

/-- Everything bound: first the scalars, then the arrays, each in name order. -/
def bindings (s : Store) : List Binding :=
  s.scalars.entries.map (fun (name, _) => .scalar name) ++
    s.arrays.entries.map (fun (name, a) => .array name a.dimensions)

/-- The value of a scalar. -/
def get? (s : Store) (name : String) : Option Value :=
  s.scalars.find? name

/-- Assigns a scalar, binding it on first use. -/
def assign (s : Store) (name : String) (value : Value) : Except BindingError Store :=
  if ValueType.ofName name = value.type then
    .ok { s with scalars := s.scalars.insert name value }
  else .error (.typeMismatch name)

/-- Overwrites a scalar that is bound already. -/
def modify (s : Store) (name : String) (value : Value) : Except BindingError Store :=
  match s.scalars.find? name with
  | none => .error (.unknown name)
  | some old =>
      if old.type = value.type then .ok { s with scalars := s.scalars.insert name value }
      else .error (.typeMismatch name)

/-- What comes of dimensioning an array. -/
inductive Dimensioned where
  | bound (later : Store)
  /-- The name is dimensioned already. -/
  | already
  /-- There are more elements than can be counted, and the program is broken off before any of them is made. -/
  | uncountable

/-- Binds an array of zero values. -/
def dim (s : Store) (name : String) (dims : Dimensions) : Dimensioned :=
  match s.arrays.find? name with
  | some _ => .already
  | none =>
      if dims.Countable then
        .bound { s with arrays := s.arrays.insert name (.replicate dims (.zero (.ofName name))) }
      else .uncountable

/-- The value of an array element. -/
def element? (s : Store) (name : String) (subs : Subscripts) : Option Value :=
  s.arrays.find? name |>.bind (·.element? subs)

/-- Overwrites an array element. -/
def setElement (s : Store) (name : String) (subs : Subscripts) (value : Value) :
    Except BindingError Store :=
  match s.arrays.find? name with
  | none => .error (.unknown name)
  | some a =>
      if ValueType.ofName name = value.type then
        match a.set? subs value with
        | some a => .ok { s with arrays := s.arrays.insert name a }
        | none => .error (.subscriptOutOfRange name)
      else .error (.typeMismatch name)

end Store

end PocketBasic
