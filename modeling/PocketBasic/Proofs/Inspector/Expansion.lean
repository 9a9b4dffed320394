import PocketBasic.Proofs.Inspector.Commit
import PocketBasic.Proofs.Inspector.Editing

/-! # Expanding arrays

The selection of the inspector is a bare number, and the list that it counts in is built anew again and again. While
the inspector works the number stays within the list. Expanding an array and collapsing it inserts and removes the
rows of its first elements behind the row of the array, which is selected: nothing in front of that row moves, so the
number stands for the same array as before, and doing both comes to nothing.
-/

namespace PocketBasic

/-! ## Lists made of pieces -/

section Pieces

variable {α β : Type}

/-- What stands at a place of a list that is made of pieces stands at some place of one of the pieces. -/
theorem exists_piece_at {xs : List α} {piece : α → List β} {place : Nat} {y : β}
    (found : (xs.flatMap piece)[place]? = some y) :
    ∃ above x below inside, xs = above ++ x :: below ∧ place = (above.flatMap piece).length + inside ∧
      (piece x)[inside]? = some y := by
  induction xs generalizing place with
  | nil => cases found
  | cons x rest ih =>
      rw [List.flatMap_cons] at found
      by_cases here : place < (piece x).length
      · rw [List.getElem?_append_left here] at found
        exact ⟨[], x, rest, place, rfl, (Nat.zero_add _).symm, found⟩
      · have beyond : (piece x).length ≤ place := Nat.le_of_not_lt here
        rw [List.getElem?_append_right beyond] at found
        obtain ⟨above, x', below, inside, rfl, counted, there⟩ := ih found
        refine ⟨x :: above, x', below, inside, rfl, ?_, there⟩
        rw [List.flatMap_cons, List.length_append]
        omega

end Pieces

/-- No two arrays are bound to one name. -/
theorem Store.pairwise_arrays (s : Store) :
    s.bindings.Pairwise fun a b => ∀ name d e, a = .array name d → b ≠ .array name e := by
  refine List.pairwise_append.mpr ⟨?_, ?_, ?_⟩
  · refine List.pairwise_map.mpr (List.Pairwise.imp ?_ s.scalars.ascending)
    rintro a b - name d e ⟨⟩
  · refine List.pairwise_map.mpr (List.Pairwise.imp ?_ s.arrays.ascending)
    rintro a b before name d e here there
    cases here
    exact String.lt_irrefl _ ((Binding.array.inj there).1 ▸ before)
  · intro a scalar b _ name d e here
    obtain ⟨entry, _, rfl⟩ := List.mem_map.mp scalar
    cases here

namespace InspectorRow

/-- The row of an array itself, behind the mark that tells whether it is expanded. -/
def ofArray (name : String) (dims : Dimensions) (mark : String) : InspectorRow :=
  ⟨.array name dims, mark ++ name ++ "(" ++ commaSeparated dims ++ ")", arrayPlaceholder⟩

/-- The rows of the first elements of an array, in their order, at most 256 of them. -/
structure OfElements (store : Store) (name : String) (dims : Dimensions) (rows : List InspectorRow) : Prop where
  length : rows.length = min 256 dims.extent
  rows : ∀ k row, rows[k]? = some row →
    ∃ subs, List.Forall₂ (· ≤ ·) subs dims ∧ dims.position subs = k ∧ row = ofElement store name subs

/-- The second list has the rows of the first elements of an array behind the row at an index, which is the array's
    own and has another mark. Everything else is as in the first list. -/
def Unfolds (store : Store) (name : String) (dims : Dimensions) (index : Nat)
    (folded unfolded : List InspectorRow) : Prop :=
  ∃ above elements below, above.length = index ∧ OfElements store name dims elements ∧
    folded = above ++ ofArray name dims "+" :: below ∧
      unfolded = above ++ ofArray name dims "-" :: (elements ++ below)

variable {store : Store} {expanded others : List String} {name label value : String} {dims : Dimensions}
  {binding : Binding} {above below : List Binding}

theorem ofBinding_array : ofBinding store expanded (.array name dims) =
    if expanded.contains name then
      ofArray name dims "-" :: (dims.elements maxElementRows).map (ofElement store name)
    else [ofArray name dims "+"] := by
  simp only [ofBinding]
  split <;> rfl

theorem ofElements_elements (store : Store) (name : String) (dims : Dimensions) :
    OfElements store name dims ((dims.elements maxElementRows).map (ofElement store name)) := by
  refine ⟨?_, fun k row listed => ?_⟩
  · rw [List.length_map, Dimensions.elements, List.length_map, List.length_range, dims.elementCount_eq_extent]
    rfl
  · rw [List.getElem?_map] at listed
    obtain ⟨subs, there, rfl⟩ := Option.map_eq_some_iff.mp listed
    have offset := ((Dimensions.getElem?_elements _ _).mp there).2
    obtain ⟨within, position⟩ := Dimensions.offset?_eq_some_iff.mp offset
    exact ⟨subs, within, position, rfl⟩

/-- The row of an array is the first of its rows. -/
theorem array_of_getElem?_ofBinding {k : Nat}
    (found : (ofBinding store expanded binding)[k]? = some ⟨.array name dims, label, value⟩) :
    binding = .array name dims ∧ k = 0 := by
  cases binding with
  | scalar key =>
      have target := List.mem_singleton.mp (List.mem_of_getElem? found)
      cases target
  | array key bounds =>
      cases k with
      | zero =>
          simp only [ofBinding, List.getElem?_cons_zero, Option.some.injEq, InspectorRow.mk.injEq,
            RowTarget.array.injEq] at found
          exact ⟨by rw [found.1.1, found.1.2], rfl⟩
      | succ k =>
          simp only [ofBinding, List.getElem?_cons_succ] at found
          split at found
          · obtain ⟨subs, _, element⟩ := List.mem_map.mp (List.mem_of_getElem? found)
            cases element
          · cases found

/-- The rows of a binding depend on what is expanded only if it is an array, and then on its own name. -/
theorem ofBinding_congr (same : expanded.contains binding.name = others.contains binding.name) :
    ofBinding store expanded binding = ofBinding store others binding := by
  cases binding with
  | scalar => rfl
  | array name dims =>
      have same : expanded.contains name = others.contains name := same
      rw [ofBinding_array, ofBinding_array, same]

theorem ofStore_congr
    (same : ∀ binding ∈ store.bindings, expanded.contains binding.name = others.contains binding.name) :
    ofStore store expanded = ofStore store others :=
  List.flatMap_congr fun binding bound => ofBinding_congr (same binding bound)

theorem ofStore_eq_append (split : store.bindings = above ++ binding :: below) :
    ofStore store expanded = above.flatMap (ofBinding store expanded) ++
      (ofBinding store expanded binding ++ below.flatMap (ofBinding store expanded)) := by
  rw [ofStore, split, List.flatMap_append, List.flatMap_cons]

end InspectorRow

namespace Inspector

/-- The selection is within the list, or at its start if there is nothing in it. -/
def InRange (i : Inspector) : Prop := i.selected < i.rows.length ∨ i.rows = [] ∧ i.selected = 0

/-- The arrays that are expanded once one of them was toggled. -/
def toggled (expanded : List String) (name : String) : List String :=
  if expanded.contains name then expanded.filter (· ≠ name) else name :: expanded

variable {i : Inspector} {store : Store} {name label value : String} {dims : Dimensions} {expanded : List String}

theorem contains_toggled (expanded : List String) (name key : String) :
    (toggled expanded name).contains key =
      if key = name then !expanded.contains name else expanded.contains key := by
  rw [Bool.eq_iff_iff]
  unfold toggled
  by_cases inside : name ∈ expanded <;> by_cases here : key = name <;> simp [inside, here]

theorem inRange_select (i : Inspector) (index : Nat) : (i.select index).InRange := by
  unfold InRange select
  by_cases none : i.rows = []
  · exact .inr ⟨none, by simp [none]⟩
  · have rows := List.length_pos_of_ne_nil none
    exact .inl (by dsimp only; omega)

theorem inRange_refresh (enabled : i.enabled = true) (store : Store) : (i.refresh store).InRange := by
  rw [refresh, if_pos enabled]
  exact inRange_select _ _

/-- What is bound stays expanded or not when the list is built anew. -/
theorem contains_expanded_refresh (i : Inspector) {binding : Binding} (bound : binding ∈ store.bindings) :
    (i.refresh store).expanded.contains binding.name = i.expanded.contains binding.name := by
  have named : (store.bindings.any fun b => b.name = binding.name) = true :=
    List.any_eq_true.mpr ⟨binding, bound, decide_eq_true rfl⟩
  unfold refresh
  split
  · rw [Bool.eq_iff_iff]
    simp only [select, List.contains_iff_mem, List.mem_filter, named, and_true]
  · rfl

theorem rows_refresh (enabled : i.enabled = true) (store : Store) :
    (i.refresh store).rows = InspectorRow.ofStore store i.expanded := by
  rw [(fresh_refresh enabled store).rows, if_pos rfl]
  exact InspectorRow.ofStore_congr fun binding bound => i.contains_expanded_refresh bound

/-! ## Toggling -/

theorem toggle_of_array (selected : i.selectedRow? = some ⟨.array name dims, label, value⟩) (store : Store) :
    i.toggle store = (true, { i with expanded := toggled i.expanded name }.refresh store) := by
  rw [toggle, selected]
  rfl

/-- Something else than an array is not expanded. -/
theorem toggle_cases (i : Inspector) (store : Store) :
    i.toggle store = (false, i) ∨ ∃ expanded, i.toggle store = (true, { i with expanded }.refresh store) := by
  unfold toggle
  split
  · exact .inr ⟨_, rfl⟩
  · exact .inl rfl

theorem rows_toggle (enabled : i.enabled = true) (selected : i.selectedRow? = some ⟨.array name dims, label, value⟩)
    (store : Store) : (i.toggle store).2.rows = InspectorRow.ofStore store (toggled i.expanded name) := by
  rw [toggle_of_array selected]
  have enabled' : { i with expanded := toggled i.expanded name }.enabled = true := enabled
  exact rows_refresh enabled' store

/-- Where the array stands that is selected, and that no other is bound to its name. -/
theorem exists_split (fresh : i.Fresh true store)
    (selected : i.selectedRow? = some ⟨.array name dims, label, value⟩) :
    ∃ above below, store.bindings = above ++ .array name dims :: below ∧
      (above.flatMap (InspectorRow.ofBinding store i.expanded)).length = i.selected ∧
      ∀ binding ∈ above ++ below, ∀ bounds, binding ≠ .array name bounds := by
  have listed : (store.bindings.flatMap (InspectorRow.ofBinding store i.expanded))[i.selected]? =
      some ⟨.array name dims, label, value⟩ := by
    have rows : i.rows = InspectorRow.ofStore store i.expanded := fresh.rows
    rw [← InspectorRow.ofStore, ← rows]
    exact selected
  obtain ⟨above, binding, below, inside, split, counted, there⟩ := exists_piece_at listed
  obtain ⟨rfl, rfl⟩ := InspectorRow.array_of_getElem?_ofBinding there
  have single := store.pairwise_arrays
  rw [split, List.pairwise_append, List.pairwise_cons] at single
  obtain ⟨-, ⟨later, -⟩, earlier⟩ := single
  refine ⟨above, below, split, counted.symm, fun binding member bounds => ?_⟩
  rcases List.mem_append.mp member with before | behind
  · rintro rfl
    exact earlier _ before _ List.mem_cons_self name bounds dims rfl rfl
  · exact later binding behind name dims bounds rfl

/-- Toggling an array makes no difference to the rows of others. -/
theorem flatMap_toggled {bindings : List Binding}
    (others : ∀ binding ∈ bindings, ∀ bounds, binding ≠ .array name bounds) :
    bindings.flatMap (InspectorRow.ofBinding store (toggled expanded name)) =
      bindings.flatMap (InspectorRow.ofBinding store expanded) := by
  refine List.flatMap_congr fun binding bound => ?_
  cases binding with
  | scalar => rfl
  | array key bounds =>
      have different : key ≠ name := fun same => others _ bound bounds (congrArg (Binding.array · bounds) same)
      exact InspectorRow.ofBinding_congr ((contains_toggled expanded name key).trans (if_neg different))

/-- What is done to a list by toggling the array that is selected in it. -/
structure Toggles (store : Store) (name : String) (dims : Dimensions) (before after : Inspector) : Prop where
  selected : after.selected = before.selected
  array : after.selectedRow?.map (·.target) = some (.array name dims)
  rows : before.expanded.contains name = false ∧
      InspectorRow.Unfolds store name dims before.selected before.rows after.rows ∨
    before.expanded.contains name = true ∧
      InspectorRow.Unfolds store name dims before.selected after.rows before.rows

theorem toggles (fresh : i.Fresh true store)
    (selected : i.selectedRow? = some ⟨.array name dims, label, value⟩) :
    Toggles store name dims i (i.toggle store).2 := by
  obtain ⟨above, below, split, counted, others⟩ := exists_split fresh selected
  rw [List.forall_mem_append] at others
  let front := above.flatMap (InspectorRow.ofBinding store i.expanded)
  let back := below.flatMap (InspectorRow.ofBinding store i.expanded)
  let own := InspectorRow.ofBinding store (toggled i.expanded name) (.array name dims)
  have before : i.rows = front ++ (InspectorRow.ofBinding store i.expanded (.array name dims) ++ back) := by
    rw [fresh.rows, if_pos rfl]
    exact InspectorRow.ofStore_eq_append split
  have after : (i.toggle store).2.rows = front ++ (own ++ back) := by
    rw [rows_toggle fresh.switch selected, InspectorRow.ofStore_eq_append split, flatMap_toggled others.1,
      flatMap_toggled others.2]
  have elements : InspectorRow.OfElements store name dims _ := InspectorRow.ofElements_elements ..
  have flipped : (toggled i.expanded name).contains name = !i.expanded.contains name := by
    rw [contains_toggled, if_pos rfl]
  obtain ⟨mark, more, unfolded⟩ : ∃ mark more, own = InspectorRow.ofArray name dims mark :: more := by
    simp only [own, InspectorRow.ofBinding_array]
    split
    · exact ⟨_, _, rfl⟩
    · exact ⟨_, _, rfl⟩
  have still : (i.toggle store).2.selected = i.selected := by
    have clamped : (i.toggle store).2.selected = min i.selected ((i.toggle store).2.rows.length - 1) := by
      rw [toggle_of_array selected, refresh, if_pos fresh.switch]
      rfl
    rw [clamped, after, unfolded, ← counted]
    simp only [List.length_append, List.length_cons, front]
    omega
  refine ⟨still, ?_, ?_⟩
  · rw [selectedRow?, still, after, unfolded, ← counted, List.getElem?_append_right (Nat.le_refl _), Nat.sub_self]
    rfl
  · rw [before, after]
    simp only [own, InspectorRow.ofBinding_array, flipped]
    cases open' : i.expanded.contains name with
    | false => exact .inl ⟨rfl, front, _, back, counted, elements, rfl, rfl⟩
    | true => exact .inr ⟨rfl, front, _, back, counted, elements, rfl, rfl⟩

/-- Expanding and then collapsing, or the other way round, comes to nothing. -/
theorem rows_toggle_toggle (fresh : i.Fresh true store)
    (selected : i.selectedRow? = some ⟨.array name dims, label, value⟩) :
    ((i.toggle store).2.toggle store).2.rows = i.rows := by
  have again : (i.toggle store).2.Fresh true store := fresh.toggle
  obtain ⟨⟨target, label', value'⟩, there, here⟩ :=
    Option.map_eq_some_iff.mp (toggles fresh selected).array
  obtain rfl : target = .array name dims := here
  rw [rows_toggle again.switch there, fresh.rows, if_pos rfl]
  refine InspectorRow.ofStore_congr fun binding bound => ?_
  have once (key : String) (named : binding.name = key) :
      (i.toggle store).2.expanded.contains key = (toggled i.expanded name).contains key := by
    rw [toggle_of_array selected, ← named]
    exact contains_expanded_refresh { i with expanded := toggled i.expanded name } bound
  rw [contains_toggled]
  split
  · rename_i same
    rw [once name same, contains_toggled, if_pos rfl, Bool.not_not, same]
  · rename_i different
    rw [once _ rfl, contains_toggled, if_neg different]

/-! ## Runs -/

/-- What is done to the inspector, with the engine as it then is. -/
inductive Operation (σ : Type) where
  | refresh (engine : σ)
  | setEnabled (enabled : Bool) (engine : σ)
  | select (index : Nat)
  | selectNext
  | selectPrevious
  | toggle (engine : σ)
  | commit (engine : σ) (text : List Char)

variable {σ : Type} [Engine σ]

def perform (i : Inspector) : Operation σ → Inspector
  | .refresh engine => i.refresh (Engine.store engine)
  | .setEnabled enabled engine => i.setEnabled enabled (Engine.store engine)
  | .select index => i.select index
  | .selectNext => i.selectNext
  | .selectPrevious => i.selectPrevious
  | .toggle engine => (i.toggle (Engine.store engine)).2
  | .commit engine text => (i.commit engine text).2.1

def performAll (i : Inspector) (os : List (Operation σ)) : Inspector := os.foldl perform i

/-- The variables from which an operation builds the rows anew, if it does. -/
def rebuilds? (i : Inspector) : Operation σ → Option Store
  | .refresh engine | .setEnabled _ engine => some (Engine.store engine)
  | .select _ | .selectNext | .selectPrevious => none
  | .toggle engine => if (i.toggle (Engine.store engine)).1 then some (Engine.store engine) else none
  | .commit engine text =>
      if (i.commit engine text).1 = none then some (Engine.store (i.commit engine text).2.2) else none

/-- The variables from which the rows were built last, if they were built ever. -/
def builtFrom? (i : Inspector) (built : Option Store) : List (Operation σ) → Option Store
  | [] => built
  | o :: rest => (i.perform o).builtFrom? ((i.rebuilds? o).or built) rest

/-- The rows are those of the variables that they were built from, if they were, and the selection is within them while
    the inspector works. -/
structure Steady (built : Option Store) (i : Inspector) : Prop where
  rows : ∀ store, built = some store → i.Fresh i.enabled store
  unbuilt : built = none → i.rows = []
  inRange : i.enabled = true → i.InRange

namespace Steady

variable {built : Option Store}

theorem refresh (i : Inspector) (store : Store) : (i.refresh store).Steady (some store) := by
  refine ⟨?_, nofun, fun enabled => ?_⟩
  · rintro _ ⟨⟩
    rw [InspectorPanel.enabled_refresh]
    exact fresh_refresh rfl store
  · rw [InspectorPanel.enabled_refresh] at enabled
    exact inRange_refresh enabled store

theorem select (steady : i.Steady built) (index : Nat) : (i.select index).Steady built :=
  ⟨fun store here => (steady.rows store here).select index, steady.unbuilt, fun _ => inRange_select i index⟩

theorem perform (stores : Engine.Stores σ) (steady : i.Steady built) (o : Operation σ) :
    (i.perform o).Steady ((i.rebuilds? o).or built) := by
  cases o with
  | refresh engine => exact .refresh i _
  | setEnabled enabled engine => exact .refresh { i with enabled } _
  | select index => exact steady.select index
  | selectNext => exact steady.select _
  | selectPrevious => exact steady.select _
  | toggle engine =>
      simp only [Inspector.perform, rebuilds?]
      obtain same | ⟨expanded, rebuilt⟩ := i.toggle_cases (Engine.store engine)
      · rw [same]
        exact steady
      · rw [rebuilt]
        exact .refresh { i with expanded } _
  | commit engine text =>
      simp only [Inspector.perform, rebuilds?]
      obtain ⟨error, failed, same, -⟩ | ⟨_, _, later, -, -, done, rebuilt, stored⟩ :=
        commit_cases stores i engine text
      · rw [failed, same]
        exact steady
      · rw [done, rebuilt, stored]
        exact .refresh i later

theorem performAll (stores : Engine.Stores σ) (steady : i.Steady built) (os : List (Operation σ)) :
    (i.performAll os).Steady (i.builtFrom? built os) := by
  induction os generalizing i built with
  | nil => exact steady
  | cons o rest ih => exact ih (steady.perform stores o)

end Steady

theorem steady_empty : empty.Steady none := ⟨nofun, fun _ => rfl, fun _ => .inr ⟨rfl, rfl⟩⟩

/-- Whatever is done to the inspector, the selection is within the list while it works. If an array is selected and
    the variables are those that the rows were built from, and 64 bits count the elements of every array, then toggling
    it leaves it selected and inserts or removes the rows of its first elements behind it and nothing else, and toggling
    it twice brings back the rows. -/
theorem selection_is_stable (stores : Engine.Stores σ) (os : List (Operation σ)) :
    let i := empty.performAll os
    (i.enabled = true → i.selected < i.rows.length ∨ i.rows = [] ∧ i.selected = 0) ∧
      ∀ store name dims label value, empty.builtFrom? none os = some store →
        (∀ key bounds, .array key bounds ∈ store.bindings → bounds.extent < 2 ^ 64) →
        i.selectedRow? = some ⟨.array name dims, label, value⟩ →
        (i.toggle store).1 = true ∧ Toggles store name dims i (i.toggle store).2 ∧
          ((i.toggle store).2.toggle store).2.rows = i.rows := by
  intro i
  have steady : i.Steady (empty.builtFrom? none os) := steady_empty.performAll stores os
  refine ⟨steady.inRange, fun store name dims label value built _ selected => ?_⟩
  have fresh : i.Fresh true store := by
    have fresh := steady.rows store built
    cases enabled : i.enabled with
    | true => rwa [enabled] at fresh
    | false =>
        have none : i.rows = [] := by simpa [enabled] using fresh.rows
        simp [selectedRow?, none] at selected
  exact ⟨by rw [toggle_of_array selected], toggles fresh selected, rows_toggle_toggle fresh selected⟩

/-- Behind a scalar and an array that is expanded stands another array, whose two elements come and go. -/
theorem selection_is_stable_second_array :
    let store := Store.empty.performAll [.assign "A%" (.integer 5), .dim "B%" [1, 1], .dim "C" [1]]
    let engine : Playback := ⟨{ PlaybackEngine.ofResults [] with store }, .ofLit []⟩
    let i := empty.performAll [.refresh engine, .selectNext, .toggle engine, .select 9]
    i.enabled = true ∧ i.selected < i.rows.length ∧ i.selected = 6 ∧ (i.toggle store).1 = true ∧
      Toggles store "C" [1] i (i.toggle store).2 ∧ (i.toggle store).2.rows.length = i.rows.length + 2 ∧
      ((i.toggle store).2.toggle store).2.rows = i.rows := by
  intro store engine i
  have stable := selection_is_stable Playback.stores [.refresh engine, .selectNext, .toggle engine, .select 9]
  rw [show empty.performAll _ = i from rfl] at stable
  obtain ⟨inRange, toggled⟩ := stable
  have enabled : i.enabled = true := by decide +kernel
  have selected : i.selectedRow? = some ⟨.array "C" [1], "+C(1)", "<array>"⟩ := by decide +kernel
  have bindings : store.bindings = [.scalar "A%", .array "B%" [1, 1], .array "C" [1]] := by decide +kernel
  have counted : ∀ key bounds, .array key bounds ∈ store.bindings → bounds.extent < 2 ^ 64 := by
    rw [bindings]
    rintro key bounds member
    simp at member
    obtain ⟨-, rfl⟩ | ⟨-, rfl⟩ := member <;> decide
  obtain ⟨done, toggles, again⟩ := toggled store "C" [1] _ _ rfl counted selected
  refine ⟨enabled, ?_, by decide +kernel, done, toggles, by decide +kernel, again⟩
  exact (inRange enabled).resolve_right fun empty => absurd empty.1 (by decide +kernel)

end Inspector

end PocketBasic
