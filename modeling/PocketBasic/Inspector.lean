import PocketBasic.Engine.Conversion
import PocketBasic.Inspector.Rows

/-! # Inspector

A list of the program's variables with one row selected. It works while the program is paused or
stopped; while it runs the list is empty, so nothing shown is ever out of date. A typed text is
converted by the rules of input fields and stored in the selected variable or element.
-/

namespace PocketBasic

/-- The list, the arrays that are expanded and the selected row. -/
structure Inspector where
  enabled : Bool
  rows : List InspectorRow
  expanded : List String
  selected : Nat
  deriving Repr, DecidableEq

/-- Why a text was not stored. -/
inductive InspectorError where
  /-- The program is running. -/
  | disabled
  /-- No row is selected, or a whole array is. -/
  | notAValue
  | value (error : FieldError)
  | binding (error : BindingError)
  deriving Repr, DecidableEq

namespace InspectorError

def message : InspectorError → String
  | .disabled => "variables can only be modified while the program is paused or stopped"
  | .notAValue => "arrays are modified one element at a time"
  | .value e => e.message
  | .binding e => e.message

end InspectorError

namespace Inspector

/-- An inspector that works and has not looked at anything. -/
def empty : Inspector := ⟨true, [], [], 0⟩

/-- Selects a row, at most the last. -/
def select (i : Inspector) (index : Nat) : Inspector :=
  { i with selected := min index (i.rows.length - 1) }

def selectNext (i : Inspector) : Inspector := i.select (i.selected + 1)

def selectPrevious (i : Inspector) : Inspector := i.select (i.selected - 1)

/-- The selected row. -/
def selectedRow? (i : Inspector) : Option InspectorRow := i.rows[i.selected]?

/-- Rebuilds the rows. An array that is bound no more is not expanded when it comes back. -/
def refresh (i : Inspector) (store : Store) : Inspector :=
  if i.enabled then
    let expanded := i.expanded.filter fun name => store.bindings.any fun b => b.name = name
    { i with expanded, rows := InspectorRow.ofStore store expanded }.select i.selected
  else { i with rows := [] }

/-- Switches the inspector on or off. -/
def setEnabled (i : Inspector) (enabled : Bool) (store : Store) : Inspector :=
  { i with enabled }.refresh store

/-- Expands or collapses the selected array, and tells whether an array was selected. -/
def toggle (i : Inspector) (store : Store) : Bool × Inspector :=
  match i.selectedRow? with
  | some ⟨.array name _, _, _⟩ =>
      let expanded :=
        if i.expanded.contains name then i.expanded.filter (· ≠ name) else name :: i.expanded
      (true, { i with expanded }.refresh store)
  | _ => (false, i)

/-- The value that a row stands for. -/
def targetValue? (store : Store) : RowTarget → Option Value
  | .scalar name => store.get? name
  | .element name subs => store.element? name subs
  | .array _ _ => none

/-- The text to start editing the selected row with. -/
def editText (i : Inspector) (store : Store) : Option String :=
  if i.enabled then
    i.selectedRow?.bind fun row => (targetValue? store row.target).map Value.editText
  else none

/-- Stores a value in what a row stands for. -/
def storeIn (store : Store) (value : Value) : RowTarget → Except InspectorError Store
  | .scalar name => (store.modify name value).mapError .binding
  | .element name subs => (store.setElement name subs value).mapError .binding
  | .array _ _ => .error .notAValue

variable {σ : Type} [Engine σ]

/-- Converts a text for the selected row and stores it. -/
def commit (i : Inspector) (engine : σ) (text : List Char) : Option InspectorError × Inspector × σ :=
  if i.enabled then
    match i.selectedRow? with
    | none => (some .notAValue, i, engine)
    | some row =>
        match Conversion.value engine text (.ofName row.target.name) with
        | (.error e, engine) => (some (.value e), i, engine)
        | (.ok value, engine) =>
            match storeIn (Engine.store engine) value row.target with
            | .error e => (some e, i, engine)
            | .ok store => (none, i.refresh store, Engine.withStore engine store)
  else (some .disabled, i, engine)

end Inspector

end PocketBasic
