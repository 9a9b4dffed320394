import PocketBasic.Number.Shortest
import PocketBasic.Store

/-! # Rows of the inspector

The inspector lists the variables of a program, one row each, and under an array that is expanded
one row for each of its first elements. A row shows a label and the text of a value.
-/

namespace PocketBasic

/-- What a row stands for. -/
inductive RowTarget where
  | scalar (name : String)
  | array (name : String) (dimensions : Dimensions)
  | element (name : String) (subscripts : Subscripts)
  deriving Repr, DecidableEq

namespace RowTarget

def name : RowTarget → String
  | .scalar name => name
  | .array name _ => name
  | .element name _ => name

end RowTarget

/-- One row of the list. -/
structure InspectorRow where
  target : RowTarget
  label : String
  value : String
  deriving Repr, DecidableEq

namespace Binary64

/-- Decimal text with the fewest digits that read back: positional near one, and with an
    exponent for magnitudes below 1E-4 and from 1E9 on. -/
def text (x : Binary64) : String :=
  if x.isNaN then "NaN"
  else
    let sign := if x.isNegative then "-" else ""
    if x.magnitude = 0 then sign ++ "0"
    else if !x.isFinite then sign ++ "inf"
    else
      let d := Number.shortest x.magnitude
      -- magnitudes of 1E-4 and 1E9
      let near := decide (0x3F1A36E2EB1C432D ≤ x.magnitude) && decide (x.magnitude < 0x41CDCD6500000000)
      sign ++ String.ofList (if near then d.positional else d.scientific)

end Binary64

namespace Value

/-- The text of a value as a row shows it: strings stand in quotes. -/
def display : Value → String
  | .integer n => toString n.toInt
  | .real x => x.text
  | .string s => "\"" ++ String.ofList s.toText ++ "\""

/-- The text to start editing a value with: strings without quotes. -/
def editText : Value → String
  | .string s => String.ofList s.toText
  | other => other.display

end Value

/-- Numbers between commas. -/
def commaSeparated (items : List UInt16) : String :=
  ",".intercalate (items.map fun n => toString n.toNat)

namespace Dimensions

/-- The subscripts at a row-major offset. -/
def subscriptsAt (dims : Dimensions) (offset : Nat) : Subscripts :=
  (dims.foldr (fun bound (rest, subs) =>
    let extent := bound.toNat + 1
    (rest / extent, (rest % extent).toUInt16 :: subs)) (offset, [])).2

/-- The subscripts of the first elements, in row-major order. -/
def elements (limit : Nat) (dims : Dimensions) : List Subscripts :=
  (List.range (min limit dims.elementCount)).map dims.subscriptsAt

end Dimensions

namespace InspectorRow

/-- Element rows listed for one expanded array. -/
def maxElementRows : Nat := 256

/-- Shown as the value of an array. -/
def arrayPlaceholder : String := "<array>"

/-- The value of a row, if what it stands for is there. -/
def valueText (value : Option Value) : String :=
  match value with
  | some v => v.display
  | none => ""

/-- The row of an array element. -/
def ofElement (store : Store) (name : String) (subs : Subscripts) : InspectorRow :=
  { target := .element name subs
    label := "  " ++ name ++ "(" ++ commaSeparated subs ++ ")"
    value := valueText (store.element? name subs) }

/-- The rows of a binding: one, and for an expanded array its elements behind it. -/
def ofBinding (store : Store) (expanded : List String) : Binding → List InspectorRow
  | .scalar name => [⟨.scalar name, name, valueText (store.get? name)⟩]
  | .array name dims =>
      let isOpen := expanded.contains name
      let mark := if isOpen then "-" else "+"
      ⟨.array name dims, mark ++ name ++ "(" ++ commaSeparated dims ++ ")", arrayPlaceholder⟩ ::
        if isOpen then (dims.elements maxElementRows).map (ofElement store name) else []

/-- The rows of a store. -/
def ofStore (store : Store) (expanded : List String) : List InspectorRow :=
  store.bindings.flatMap (ofBinding store expanded)

end InspectorRow

end PocketBasic
