import PocketBasic.Proofs.Program.Parentheses
import PocketBasic.Proofs.Text.Codes

/-! # Names in function bodies

The name of a variable is made of letters and digits, which every body may have, and at most one type suffix. Of the
two suffixes a body may have the dollar sign only, so a name passes the check of a body unless it ends in a percent
sign, and then that sign is the only thing complained about.
-/

namespace PocketBasic

namespace Statement

variable {c : Char} {s : List Char}

theorem isAlphanum_of_isCapital (capital : isCapital c = true) : c.isAlphanum = true := by
  rw [isCapital, Bool.and_eq_true, decide_eq_true_iff, decide_eq_true_iff] at capital
  have upper : c.isUpper = true := decide_eq_true capital
  have alpha : c.isAlpha = true := Bool.or_eq_true_iff.mpr (.inl upper)
  exact Bool.or_eq_true_iff.mpr (.inl alpha)

theorem isAlphanum_of_digitValue? (digit : (Number.digitValue? c).isSome = true) : c.isAlphanum = true := by
  unfold Number.digitValue? at digit
  split at digit
  · rename_i range
    have digit : c.isDigit = true := range
    exact Bool.or_eq_true_iff.mpr (.inr digit)
  · cases digit

theorem exists_stem (s : List Char) :
    ∃ suffix, s = stem s ++ suffix ∧ (suffix = [] ∨ suffix = ['$'] ∨ suffix = ['%']) := by
  unfold stem
  split
  · rename_i last
    exact ⟨_, (List.dropLast_append_getLast? _ last).symm, .inr (.inl rfl)⟩
  · rename_i last
    exact ⟨_, (List.dropLast_append_getLast? _ last).symm, .inr (.inr rfl)⟩
  · exact ⟨[], (List.append_nil s).symm, .inl rfl⟩

/-- A name is letters and digits, at least one of them, and perhaps a suffix. -/
theorem exists_of_isName (named : isName s = true) :
    ∃ front suffix, s = front ++ suffix ∧ front ≠ [] ∧ (∀ c ∈ front, c.isAlphanum = true) ∧
      (suffix = [] ∨ suffix = ['$'] ∨ suffix = ['%']) := by
  obtain ⟨suffix, split, kind⟩ := exists_stem s
  refine ⟨stem s, suffix, split, ?_⟩
  unfold isName at named
  split at named
  · cases named
  · rename_i first rest front
    rw [Bool.and_eq_true, List.all_eq_true] at named
    rw [front]
    refine ⟨List.cons_ne_nil _ _, List.forall_mem_cons.mpr ⟨isAlphanum_of_isCapital named.1, fun c member => ?_⟩, kind⟩
    exact (Bool.or_eq_true_iff.mp (named.2 c member)).elim isAlphanum_of_isCapital isAlphanum_of_digitValue?

end Statement

namespace FunctionBody

open Statement

variable {s before after rest old name : List Char} {n m : Nat} {opened opened' : List Nat}

/-! ## The check of a text in pieces -/

/-- What the check says of a text does not depend on what follows it. -/
theorem exists_check_append (before : List Char) (n : Nat) (opened : List Nat) :
    ∃ said, ∀ rest, check n opened (before ++ rest) =
      said ++ check (n + before.length) (openedFrom n opened before) rest := by
  induction before generalizing n opened with
  | nil => exact ⟨[], fun rest => rfl⟩
  | cons c before ih =>
      have index : n + (c :: before).length = n + 1 + before.length := by
        rw [List.length_cons, Nat.add_right_comm, Nat.add_assoc]
      simp only [List.cons_append, check, openedFrom, index]
      split
      · exact ih _ _
      · split
        · cases opened with
          | nil =>
              obtain ⟨said, later⟩ := ih (n + 1) []
              exact ⟨_ :: said, fun rest => congrArg (_ :: ·) (later rest)⟩
          | cons k below => exact ih _ _
        · split
          · exact ih _ _
          · obtain ⟨said, later⟩ := ih (n + 1) opened
            exact ⟨_ :: said, fun rest => congrArg (_ :: ·) (later rest)⟩

/-- Whether the check finds fault with a text depends on how many parentheses are open before it, and not on where. -/
theorem check_eq_nil_congr (open' : opened.length = opened'.length) :
    check n opened s = [] ↔ check m opened' s = [] := by
  induction s generalizing n m opened opened' with
  | nil =>
      simp only [check, List.map_eq_nil_iff, List.reverse_eq_nil_iff]
      rw [← List.length_eq_zero_iff, open', List.length_eq_zero_iff]
  | cons c rest ih =>
      unfold check
      split
      · exact ih (by simp [open'])
      · split
        · cases opened <;> cases opened'
          · simp
          · cases open'
          · cases open'
          · exact ih (Nat.succ.inj open')
        · split
          · exact ih open'
          · simp

theorem check_append_of_plain (plain : ∀ c ∈ s, isPlain c = true) :
    check n opened (s ++ rest) = check (n + s.length) opened rest := by
  induction s generalizing n with
  | nil => rfl
  | cons c s ih =>
      rw [List.forall_mem_cons] at plain
      have opening : c ≠ '(' := by
        rintro rfl
        exact absurd plain.1 (by decide)
      have closing : c ≠ ')' := by
        rintro rfl
        exact absurd plain.1 (by decide)
      have step : check n opened (c :: (s ++ rest)) = check (n + 1) opened (s ++ rest) := by
        simp [check, opening, closing, plain.1]
      rw [List.cons_append, step, ih plain.2, List.length_cons, Nat.add_right_comm, Nat.add_assoc]

/-! ## Names -/

/-- What there is to say of a name that starts at an index. -/
def nameErrors (index : Nat) (name : List Char) : List Diagnostic :=
  if name.getLast? = some '%' then [errorAt (index + (name.length - 1)) "unexpected character '%'"] else []

theorem check_append_of_isName (named : isName name = true) (n : Nat) (opened : List Nat) (rest : List Char) :
    check n opened (name ++ rest) = nameErrors n name ++ check (n + name.length) opened rest := by
  obtain ⟨front, suffix, rfl, nonempty, letters, kind⟩ := exists_of_isName named
  have plain : ∀ c ∈ front, isPlain c = true := fun c member => by simp [isPlain, letters c member]
  rw [List.append_assoc, check_append_of_plain plain]
  rcases kind with rfl | rfl | rfl
  · have last : front.getLast? ≠ some '%' := fun last =>
      absurd (letters _ (List.mem_of_getLast? last)) (by decide)
    simp [nameErrors, last]
  · rw [check_append_of_plain (List.forall_mem_singleton.mpr rfl)]
    simp [nameErrors, Nat.add_assoc]
  · have strange : isPlain '%' = false := rfl
    simp [nameErrors, Nat.add_assoc, check, strange]

/-- A text with a name in it is not blank. -/
theorem not_all_isBlank_of_isName (named : isName name = true) :
    (before ++ name ++ after).all Text.isBlank = false := by
  obtain ⟨front, suffix, rfl, nonempty, letters, -⟩ := exists_of_isName named
  obtain ⟨c, front, rfl⟩ := List.exists_cons_of_ne_nil nonempty
  refine List.all_eq_false.mpr ⟨c, by simp, ?_⟩
  rw [Text.not_isBlank_of_isAlphanum (letters c List.mem_cons_self)]
  exact Bool.false_ne_true

theorem diagnostics_of_isName (named : isName name = true) (before after : List Char) :
    diagnostics (before ++ name ++ after) = check 0 [] (before ++ (name ++ after)) := by
  rw [diagnostics, not_all_isBlank_of_isName named, List.append_assoc]
  rfl

/-- A name compiles unless it ends in a percent sign, also in the place of another name of a body that compiles. The
    percent sign is the only thing complained about. -/
theorem compile_name (c : Computer) (named : isName name = true) :
    let messages (body : List Char) := (Engine.compile c (Text.toUnits body)).1.diagnostics
    messages name = nameErrors 0 name ∧
    ∀ before old after, isName old = true → messages (before ++ old ++ after) = [] →
      messages (before ++ name ++ after) = nameErrors before.length name := by
  intro messages
  have said (body : List Char) : messages body = diagnostics body :=
    congrArg diagnostics (Text.ofUnitsLossy_toUnits body)
  refine ⟨?_, fun before old after old' compiles => ?_⟩
  · have alone := diagnostics_of_isName named [] []
    rw [List.nil_append, List.nil_append, check_append_of_isName named, List.append_nil] at alone
    rw [said, alone]
    exact List.append_nil _
  · obtain ⟨front, pieces⟩ := exists_check_append before 0 []
    rw [said, diagnostics_of_isName old', pieces, check_append_of_isName old', List.append_eq_nil_iff,
      List.append_eq_nil_iff] at compiles
    obtain ⟨rfl, -, behind⟩ := compiles
    rw [said, diagnostics_of_isName named, pieces, check_append_of_isName named, (check_eq_nil_congr rfl).mp behind,
      List.nil_append, List.append_nil, Nat.zero_add]

/-- `B` may stand in parentheses, and `A%` neither alone nor in its place. -/
theorem compile_name_percent :
    let messages (body : List Char) := (Engine.compile (Computer.ofProgram []) (Text.toUnits body)).1.diagnostics
    isName ['A', '%'] = true ∧ isName ['B'] = true ∧
      messages ['A', '%'] = [errorAt 1 "unexpected character '%'"] ∧
      messages (['('] ++ ['B'] ++ ['+', '1', ')']) = [] ∧
      messages (['('] ++ ['A', '%'] ++ ['+', '1', ')']) = [errorAt 2 "unexpected character '%'"] := by
  intro messages
  have named : isName ['A', '%'] = true := by decide
  obtain ⟨alone, inside⟩ := compile_name (Computer.ofProgram []) named
  have old : isName ['B'] = true := by decide
  have compiles : messages (['('] ++ ['B'] ++ ['+', '1', ')']) = [] := by decide
  exact ⟨named, old, alone, compiles, inside _ _ _ old compiles⟩

end FunctionBody

end PocketBasic
