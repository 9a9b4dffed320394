import PocketBasic.Playback
import PocketBasic.Proofs.Inspector.Fresh
import PocketBasic.Proofs.Program.Mishaps
import PocketBasic.Proofs.Store.Elements

/-! # What storing a text changes

The text typed for the selected row is converted by the rules of input fields and written to what the row stands
for. If anything on the way fails nothing has changed. If nothing does, the value is there, the list shows it on
the row that is selected still, and no other variable or element has changed.
-/

namespace PocketBasic

namespace Inspector

variable {σ : Type} [Engine σ]

/-- The text is a value for the selected row, by the rules of an input field of its type. -/
structure Offers (i : Inspector) (engine : σ) (text : List Char) (row : InspectorRow) (value : Value) :
    Prop where
  enabled : i.enabled = true
  selected : i.selectedRow? = some row
  converted : ∃ answer,
    (Conversion.answer engine text (ValueType.ofName row.target.name).fieldKind).1 = .ok answer ∧
      World.answerValue? answer = some value

/-- The rows were built when the store had the bindings that it has now, and only the selection has moved
    since. -/
def Lists (i : Inspector) (s : Store) : Prop :=
  ∃ (before : Inspector) (earlier : Store) (index : Nat),
    i = { before.refresh earlier with selected := index } ∧ earlier.bindings = s.bindings

variable {s later : Store} {target : RowTarget} {value : Value}

/-! ## Writing to a target -/

/-- What is written was there before with another value. -/
theorem readable_of_storeIn (sized : s.Sized) (stored : storeIn s value target = .ok later) :
    (targetValue? s target).isSome = true := by
  cases target with
  | array name dims => cases stored
  | scalar name =>
      obtain ⟨old, found, _⟩ := Store.modify_ok (Store.ok_of_mapError stored)
      exact Option.isSome_of_eq_some found
  | element name subs =>
      obtain ⟨a, i, found, offset, _⟩ := Store.setElement_ok (Store.ok_of_mapError stored)
      have bound : .array name a.dimensions ∈ s.bindings := Store.array_mem_bindings.mpr ⟨a, found, rfl⟩
      have within := Dimensions.isSome_offset?.mp (Option.isSome_of_eq_some offset)
      exact (Store.isSome_element? sized bound).mpr within

/-- What is written is in the target, and nowhere else. -/
theorem targetValue?_storeIn (sized : s.Sized) (stored : storeIn s value target = .ok later)
    (other : RowTarget) :
    targetValue? later other = if other = target then some value else targetValue? s other := by
  cases target with
  | array name dims => cases stored
  | scalar name =>
      obtain ⟨_, _, _, rfl⟩ := Store.modify_ok (Store.ok_of_mapError stored)
      cases other with
      | array | element => rfl
      | scalar key =>
          simp only [targetValue?, Store.get?, NameTable.find?_insert, RowTarget.scalar.injEq, eq_comm (a := name)]
  | element name subs =>
      have changed := Store.ok_of_mapError stored
      obtain ⟨scalars, _, arrays⟩ := Store.others_of_setElement changed
      cases other with
      | array => rfl
      | scalar key => simp [targetValue?, Store.get?, scalars]
      | element key other =>
          by_cases here : key = name
          · subst here
            simp only [targetValue?, Store.element?_setElement sized changed, RowTarget.element.injEq, true_and]
          · simp [targetValue?, Store.element?, arrays key here, here]

theorem exists_attempt_of_storeIn (stored : storeIn s value target = .ok later) :
    ∃ o : Store.Operation, s.attempt o = .ok later ∧ o.binds = false := by
  cases target with
  | array name dims => cases stored
  | scalar name =>
      exact ⟨.modify name value, by rw [Store.attempt, Store.ok_of_mapError stored]; rfl, rfl⟩
  | element name subs =>
      exact ⟨.setElement name subs value, by rw [Store.attempt, Store.ok_of_mapError stored]; rfl, rfl⟩

/-- A value of the type that the name gives is stored in whatever can be read. -/
theorem storeIn_of_readable (typed : s.Typed) (fits : value.type = .ofName target.name)
    (readable : (targetValue? s target).isSome = true) : ∃ later, storeIn s value target = .ok later := by
  obtain ⟨old, found⟩ := Option.isSome_iff_exists.mp readable
  cases target with
  | array name dims => cases found
  | scalar name =>
      have same : old.type = value.type := (typed.get? found).trans fits.symm
      have found : s.scalars.find? name = some old := found
      exact ⟨{ s with scalars := s.scalars.insert name value },
        by simp [storeIn, Store.modify, found, same, Except.mapError]⟩
  | element name subs =>
      obtain ⟨a, found, inside⟩ := Option.bind_eq_some_iff.mp found
      obtain ⟨i, offset, _⟩ := Option.bind_eq_some_iff.mp inside
      have within := Dimensions.isSome_offset?.mp (Option.isSome_of_eq_some offset)
      obtain ⟨later, done⟩ :=
        Store.setElement_of_within (Store.array_mem_bindings.mpr ⟨a, found, rfl⟩) fits within
      exact ⟨later, by rw [storeIn, done]; rfl⟩

/-! ## The rows -/

theorem targets_ofStore (same : later.bindings = s.bindings) (expanded : List String) :
    (InspectorRow.ofStore later expanded).map (·.target) = (InspectorRow.ofStore s expanded).map (·.target) := by
  have each (binding : Binding) : (InspectorRow.ofBinding later expanded binding).map (·.target) =
      (InspectorRow.ofBinding s expanded binding).map (·.target) := by
    cases binding with
    | scalar name => rfl
    | array name dims =>
        simp only [InspectorRow.ofBinding, List.map_cons, List.cons.injEq, true_and]
        split
        · simp only [List.map_map]
          rfl
        · rfl
  simp only [InspectorRow.ofStore, List.map_flatMap, same, each]

/-- A row shows what it stands for, and what it stands for is there. -/
theorem shown_of_mem_ofStore (sized : s.Sized) {expanded : List String} {row : InspectorRow}
    (listed : row ∈ InspectorRow.ofStore s expanded) :
    (∃ name dims, row.target = .array name dims) ∨
      ∃ value, targetValue? s row.target = some value ∧ row.value = value.display := by
  obtain ⟨binding, bound, inside⟩ := List.mem_flatMap.mp listed
  cases binding with
  | scalar name =>
      obtain ⟨value, found⟩ := Store.scalar_mem_bindings.mp bound
      obtain rfl := List.mem_singleton.mp inside
      exact .inr ⟨value, found, by simp [found, InspectorRow.valueText]⟩
  | array name dims =>
      rcases List.mem_cons.mp inside with rfl | inside
      · exact .inl ⟨name, dims, rfl⟩
      · split at inside
        · obtain ⟨subs, member, rfl⟩ := List.mem_map.mp inside
          obtain ⟨k, below, rfl⟩ := List.mem_map.mp member
          have counted : k < dims.extent := by
            rw [List.mem_range, dims.elementCount_eq_extent] at below
            omega
          obtain ⟨value, read⟩ := Store.exists_element?_subscriptsAt sized bound counted
          exact .inr ⟨value, read, by simp [InspectorRow.ofElement, read, InspectorRow.valueText]⟩
        · cases inside

namespace Lists

variable {i : Inspector} {row : InspectorRow} (lists : i.Lists s) (enabled : i.enabled = true)

include lists enabled

/-- The rows stand for what rows that were built now would stand for. -/
theorem rows : i.expanded.filter (fun name => s.bindings.any fun b => b.name = name) = i.expanded ∧
    i.rows.map (·.target) = (InspectorRow.ofStore s i.expanded).map (·.target) := by
  obtain ⟨before, earlier, index, rfl, built⟩ := lists
  have on : before.enabled = true := by
    unfold Inspector.refresh at enabled
    split at enabled
    · assumption
    · exact enabled
  simp only [Inspector.refresh, on, if_true, select]
  refine ⟨?_, targets_ofStore built _⟩
  rw [built, List.filter_filter]
  simp

/-- What stands in the selected row is listed in the same place whenever these bindings are. -/
theorem listed (selected : i.selectedRow? = some row) (same : later.bindings = s.bindings) :
    ∃ shown, (InspectorRow.ofStore later i.expanded)[i.selected]? = some shown ∧ shown.target = row.target := by
  have targets := (rows lists enabled).2
  rw [← targets_ofStore same] at targets
  have place := congrArg (·[i.selected]?) targets
  simp only [List.getElem?_map] at place
  rw [show i.rows[i.selected]? = some row from selected] at place
  exact Option.map_eq_some_iff.mp place.symm

theorem readable (selected : i.selectedRow? = some row) (sized : s.Sized)
    (single : ∀ name dims, row.target ≠ .array name dims) : (targetValue? s row.target).isSome = true := by
  obtain ⟨shown, here, target⟩ := listed lists enabled selected rfl
  rcases shown_of_mem_ofStore sized (List.mem_of_getElem? here) with ⟨name, dims, array⟩ | ⟨value, found, _⟩
  · exact absurd (target.symm.trans array) (single name dims)
  · rw [← target, found]
    rfl

/-- A refresh that finds the same bindings keeps the selection on what it is on, and shows what is stored by
    then. -/
theorem refresh (selected : i.selectedRow? = some row) (sized : later.Sized)
    (same : later.bindings = s.bindings) (found : targetValue? later row.target = some value) :
    ∃ shown, (i.refresh later).selectedRow? = some shown ∧ shown.target = row.target ∧
      shown.value = value.display := by
  obtain ⟨shown, here, target⟩ := listed lists enabled selected same
  have again := (rows lists enabled).1
  rw [← same] at again
  have inside := (List.getElem?_eq_some_iff.mp here).1
  refine ⟨shown, ?_, target, ?_⟩
  · simp only [Inspector.refresh, select, selectedRow?, enabled, if_true, again]
    rwa [Nat.min_eq_left (by omega)]
  · rcases shown_of_mem_ofStore sized (List.mem_of_getElem? here) with ⟨name, dims, array⟩ | ⟨value', there, text⟩
    · rw [← target, array] at found
      cases found
    · rw [target, found] at there
      rw [text, Option.some.inj there]

end Lists

/-! ## Storing a text -/

variable {i : Inspector} {engine : σ} {text : List Char} {row : InspectorRow}

/-- The conversions of the inspector are those of input fields. -/
theorem converted_iff (type : ValueType) :
    (Conversion.value engine text type).1 = .ok value ↔
      ∃ answer, (Conversion.answer engine text type.fieldKind).1 = .ok answer ∧
        World.answerValue? answer = some value := by
  have mapped {α : Type} (e : Except FieldError α) (f : α → Value) (g : α → Answer)
      (stores : ∀ a, World.answerValue? (g a) = some (f a)) :
      e.map f = .ok value ↔ ∃ answer, e.map g = .ok answer ∧ World.answerValue? answer = some value := by
    cases e with
    | error => simp [Except.map]
    | ok a => simp [Except.map, stores]
  cases type with
  | integer => exact mapped _ _ _ fun _ => rfl
  | real => exact mapped _ _ _ fun _ => rfl
  | string => exact mapped _ _ _ fun _ => rfl

theorem Offers.type_eq (offers : i.Offers engine text row value) : value.type = .ofName row.target.name := by
  obtain ⟨answer, converted, valued⟩ := offers.converted
  exact World.type_answerValue (Conversion.fits_answer converted) valued

/-- What a commit comes to. -/
theorem commit_cases (stores : Engine.Stores σ) (i : Inspector) (engine : σ) (text : List Char) :
    (∃ error, (i.commit engine text).1 = some error ∧ (i.commit engine text).2.1 = i ∧
      Engine.store (i.commit engine text).2.2 = Engine.store engine) ∨
    ∃ row value later, i.Offers engine text row value ∧
      storeIn (Engine.store engine) value row.target = .ok later ∧ (i.commit engine text).1 = none ∧
      (i.commit engine text).2.1 = i.refresh later ∧ Engine.store (i.commit engine text).2.2 = later := by
  unfold commit
  split
  · rename_i enabled
    split
    · exact .inl ⟨_, rfl, rfl, rfl⟩
    · rename_i row selected
      have kept := stores.kept.value engine text (.ofName row.target.name)
      cases converted : Conversion.value engine text (.ofName row.target.name) with
      | mk result engine' =>
          rw [converted] at kept
          cases result with
          | error e => exact .inl ⟨_, rfl, rfl, kept⟩
          | ok value =>
              have offers : i.Offers engine text row value :=
                ⟨enabled, selected, (converted_iff _).mp (congrArg Prod.fst converted)⟩
              dsimp only at kept ⊢
              rw [kept]
              cases stored : storeIn (Engine.store engine) value row.target with
              | error e => exact .inl ⟨_, rfl, rfl, kept⟩
              | ok later => exact .inr ⟨row, value, later, offers, stored, rfl, rfl, stores.stored _ _⟩
  · exact .inl ⟨_, rfl, rfl, rfl⟩

/-- Whatever the row stands for is written if the store takes the value there. -/
theorem Offers.commit (stores : Engine.Stores σ) (offers : i.Offers engine text row value)
    (stored : storeIn (Engine.store engine) value row.target = .ok later) : (i.commit engine text).1 = none := by
  obtain ⟨enabled, selected, converted⟩ := offers
  rw [← converted_iff] at converted
  have kept := stores.kept.value engine text (.ofName row.target.name)
  unfold Inspector.commit
  rw [if_pos enabled, selected]
  dsimp only
  cases done : Conversion.value engine text (.ofName row.target.name) with
  | mk result engine' =>
      rw [done] at converted kept
      dsimp only at converted kept
      subst converted
      dsimp only
      rw [kept, stored]

/-- Storing a text either fails and changes neither a variable nor the list, or writes the value of the text, by
    the rules of input fields, to what the selected row stands for; it does so exactly if the text has a value
    and the row stands for something. Then no binding comes or goes, no other variable or element has another
    value than before, and the row is selected still and shows the value if the rows were built from the
    bindings there are. -/
theorem commit_overwrites_only_target (stores : Engine.Stores σ) {os : List Store.Operation}
    (reached : Engine.store engine = Store.empty.performAll os) (i : Inspector) (text : List Char) :
    let done := i.commit engine text
    let before := Engine.store engine
    let after := Engine.store done.2.2
    (done.1 ≠ none → after = before ∧ done.2.1 = i) ∧
      (∀ row value, i.Offers engine text row value → (targetValue? before row.target).isSome = true →
        done.1 = none) ∧
      (done.1 = none → ∃ row value, i.Offers engine text row value ∧
        (targetValue? before row.target).isSome = true ∧ after.bindings = before.bindings ∧
        targetValue? after row.target = some value ∧
        (∀ other, other ≠ row.target → targetValue? after other = targetValue? before other) ∧
        (i.Lists before → ∃ shown, done.2.1.selectedRow? = some shown ∧ shown.target = row.target ∧
          shown.value = value.display)) := by
  intro done before after
  have typed : before.Typed := by
    rw [show before = _ from reached]
    exact Store.typed_empty.performAll os
  have sized : before.Sized := by
    rw [show before = _ from reached]
    exact Store.sized_empty.performAll os
  refine ⟨fun failed => ?_, fun row value offers readable => ?_, fun succeeded => ?_⟩
  · rcases commit_cases stores i engine text with ⟨_, _, list, kept⟩ | ⟨_, _, _, _, _, none, _⟩
    · exact ⟨kept, list⟩
    · exact absurd none failed
  · obtain ⟨later, stored⟩ := storeIn_of_readable typed offers.type_eq readable
    exact offers.commit stores stored
  · rcases commit_cases stores i engine text with
      ⟨_, failed, _⟩ | ⟨row, value, later, offers, stored, _, list, written⟩
    · rw [failed] at succeeded
      cases succeeded
    · obtain rfl : after = later := written
      obtain ⟨o, attempted, kept⟩ := exists_attempt_of_storeIn stored
      have same := Store.bindings_attempt attempted kept
      have found : targetValue? after row.target = some value :=
        (targetValue?_storeIn sized stored row.target).trans (if_pos rfl)
      refine ⟨row, value, offers, readable_of_storeIn sized stored, same, found, fun other different => ?_,
        fun lists => ?_⟩
      · exact (targetValue?_storeIn sized stored other).trans (if_neg different)
      · rw [show done.2.1 = _ from list]
        exact lists.refresh offers.enabled offers.selected (sized.attempt attempted) same found

end Inspector

theorem Playback.stores : Engine.Stores Playback where
  kept := ⟨fun _ _ => rfl, fun _ _ => rfl⟩
  stored _ _ := rfl

/-- The fifth element of an array of two rows of three is set to 7. -/
theorem Inspector.commit_overwrites_only_target_element :
    let store := Store.empty.performAll [.assign "N%" (.integer 3), .dim "A%" [1, 2]]
    let engine : Playback := ⟨{ PlaybackEngine.ofResults [] with store }, .ofLit []⟩
    let before := Engine.store engine
    let i := { Inspector.refresh { Inspector.empty with expanded := ["A%"] } before with selected := 6 }
    let done := i.commit engine ['7']
    let after := Engine.store done.2.2
    done.1 = none ∧ after.bindings = before.bindings ∧
      Inspector.targetValue? before (.element "A%" [1, 1]) = some (.integer 0) ∧
      Inspector.targetValue? after (.element "A%" [1, 1]) = some (.integer 7) ∧
      Inspector.targetValue? after (.element "A%" [0, 1]) = some (.integer 0) ∧
      Inspector.targetValue? after (.scalar "N%") = some (.integer 3) ∧
      ∃ shown, done.2.1.selectedRow? = some shown ∧ shown.target = .element "A%" [1, 1] ∧ shown.value = "7" := by
  intro store engine before i done after
  have place : i.selectedRow?.map (·.target) = some (.element "A%" [1, 1]) := by decide +kernel
  have succeeded : done.1 = none := by decide +kernel
  have reached : Engine.store engine =
      Store.empty.performAll [.assign "N%" (.integer 3), .dim "A%" [1, 2]] := rfl
  obtain ⟨_, _, written⟩ := Inspector.commit_overwrites_only_target Playback.stores reached i ['7']
  obtain ⟨row, value, offers, _, same, new, others, showing⟩ := written succeeded
  have target : row.target = .element "A%" [1, 1] := by
    rw [offers.selected] at place
    exact Option.some.inj place
  have lists : i.Lists before := ⟨{ Inspector.empty with expanded := ["A%"] }, before, 6, rfl, rfl⟩
  rw [target] at new others showing
  have seven : Inspector.targetValue? after (.element "A%" [1, 1]) = some (.integer 7) := by decide +kernel
  obtain rfl : value = .integer 7 := Option.some.inj (new.symm.trans seven)
  refine ⟨succeeded, same, by decide +kernel, new, ?_, ?_, showing lists⟩
  · exact (others _ (by decide)).trans (by decide +kernel)
  · exact (others _ (by decide)).trans (by decide +kernel)

end PocketBasic
