/-! # Tables in name order

A finite map from names, kept as the list of its entries in strictly increasing order of names. The
order is part of what the inspector shows, so it is part of the type.
-/

namespace PocketBasic

/-- Names come in strictly increasing order. -/
def Ascending {α : Type} (entries : List (String × α)) : Prop :=
  entries.Pairwise fun a b => a.1 < b.1

/-- A map from names to `α`. -/
structure NameTable (α : Type) where
  entries : List (String × α)
  ascending : Ascending entries

namespace NameTable

variable {α : Type}

/-- The table without entries. -/
def empty : NameTable α := ⟨[], .nil⟩

/-- The value of the first entry under a name. -/
def findIn (name : String) : List (String × α) → Option α
  | [] => none
  | (key, value) :: rest => if key = name then some value else findIn name rest

/-- The value under a name. -/
def find? (table : NameTable α) (name : String) : Option α :=
  findIn name table.entries

/-- Puts an entry where its name belongs, in place of an entry of the same name. -/
def insertIn (name : String) (value : α) : List (String × α) → List (String × α)
  | [] => [(name, value)]
  | (key, old) :: rest =>
      if name < key then (name, value) :: (key, old) :: rest
      else if name = key then (name, value) :: rest
      else (key, old) :: insertIn name value rest

theorem mem_insertIn {name : String} {value : α} {entries : List (String × α)} {entry : String × α}
    (h : entry ∈ insertIn name value entries) : entry.1 = name ∨ entry ∈ entries := by
  induction entries with
  | nil => simp_all [insertIn]
  | cons first rest ih =>
      obtain ⟨key, old⟩ := first
      simp only [insertIn] at h
      split at h
      · rcases List.mem_cons.1 h with rfl | h
        · exact .inl rfl
        · exact .inr h
      · split at h
        · rcases List.mem_cons.1 h with rfl | h
          · exact .inl rfl
          · exact .inr (List.mem_cons_of_mem _ h)
        · rcases List.mem_cons.1 h with rfl | h
          · exact .inr List.mem_cons_self
          · exact (ih h).imp_right (List.mem_cons_of_mem _)

theorem ascending_insertIn (name : String) (value : α) {entries : List (String × α)}
    (h : Ascending entries) : Ascending (insertIn name value entries) := by
  induction entries with
  | nil => simp [insertIn, Ascending]
  | cons first rest ih =>
      obtain ⟨key, old⟩ := first
      obtain ⟨hfirst, hrest⟩ := List.pairwise_cons.1 h
      simp only [insertIn]
      split
      case isTrue hlt =>
        refine List.pairwise_cons.2 ⟨fun entry hmem => ?_, h⟩
        rcases List.mem_cons.1 hmem with rfl | hmem
        · exact hlt
        · exact String.lt_trans hlt (hfirst entry hmem)
      case isFalse hnlt =>
        split
        case isTrue heq =>
          subst heq
          exact List.pairwise_cons.2 ⟨hfirst, hrest⟩
        case isFalse hne =>
          refine List.pairwise_cons.2 ⟨fun entry hmem => ?_, ih hrest⟩
          rcases mem_insertIn hmem with heq | hmem
          · rw [heq]
            exact String.not_le.1 fun hle => hne (String.le_antisymm hle (String.not_lt.1 hnlt))
          · exact hfirst entry hmem

/-- Sets the value under a name. -/
def insert (table : NameTable α) (name : String) (value : α) : NameTable α :=
  ⟨insertIn name value table.entries, ascending_insertIn name value table.ascending⟩

/-- The names in the table. -/
def names (table : NameTable α) : List String :=
  table.entries.map (·.1)

end NameTable

end PocketBasic
