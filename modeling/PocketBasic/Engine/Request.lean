import PocketBasic.Value

/-! # Asking the user for values

An `INPUT` instruction asks for one value per field. A field takes a number, a string or the body of
a function; a body is compiled by the engine, which names it by a number.
-/

namespace PocketBasic

/-- What a field of a request takes. -/
inductive FieldKind where
  | integer
  | real
  | string
  /-- The body of a function of one parameter. -/
  | func (name param : String)
  deriving Repr, DecidableEq

/-- The kind of field that takes values of a type. -/
def ValueType.fieldKind : ValueType → FieldKind
  | .integer => .integer
  | .real => .real
  | .string => .string

/-- A compiled function body. -/
structure FnBody where
  id : Nat
  source : String
  deriving Repr, DecidableEq

/-- A value that answers one field. -/
inductive Answer where
  | integer (n : Int16)
  | real (x : Binary64)
  | string (s : DeviceString)
  | func (body : FnBody)
  deriving Repr, DecidableEq

/-- What a program asks for: a prompt, if it has one, and the fields. -/
structure Request where
  prompt : Option String
  fields : List FieldKind
  deriving Repr, DecidableEq

end PocketBasic
