import PocketBasic.Text.Blank
import PocketBasic.Text.Lines

/-! # Lines that are joined and split again

Lines that are joined by line feeds and split again come out as they were, but for a carriage return at the end of a
line, which then belongs to the line ending, and for an empty line at the end. Neither says anything: a carriage
return is a blank.
-/

namespace PocketBasic.Text

variable {c : Char} {s line : List Char}

/-! ## Splitting -/

theorem lines_cons (notFeed : c ≠ '\n') (notEnding : c = '\r' → ∀ rest, s ≠ '\n' :: rest) :
    lines (c :: s) = match lines s with
      | [] => [[c]]
      | line :: more => (c :: line) :: more :=
  lines.eq_4 c s notFeed fun rest ending same => notEnding ending rest same

/-- A text without line feeds is one line. -/
theorem lines_of_unbroken (unbroken : '\n' ∉ line) : lines line = if line = [] then [] else [line] := by
  induction line with
  | nil => rfl
  | cons c rest ih =>
      rw [List.mem_cons, not_or] at unbroken
      have notEnding : c = '\r' → ∀ more, rest ≠ '\n' :: more := by
        rintro - more rfl
        exact unbroken.2 List.mem_cons_self
      rw [lines_cons (Ne.symm unbroken.1) notEnding, ih unbroken.2, if_neg (List.cons_ne_nil c rest)]
      cases rest <;> rfl

/-- The lines are the same, up to a carriage return at the end of the first. -/
def UpToReturn (line shown : List Char) : Prop := line = shown ∨ line = shown ++ ['\r']

/-- A line feed ends a line, together with a carriage return before it. -/
theorem exists_lines_append_feed (unbroken : '\n' ∉ line) (rest : List Char) :
    ∃ shown, lines (line ++ '\n' :: rest) = shown :: lines rest ∧ UpToReturn line shown := by
  induction line with
  | nil => exact ⟨[], by rw [List.nil_append, lines], .inl rfl⟩
  | cons c line ih =>
      rw [List.mem_cons, not_or] at unbroken
      by_cases ending : c = '\r' ∧ line = []
      · obtain ⟨rfl, rfl⟩ := ending
        exact ⟨[], by rw [List.singleton_append, lines], .inr rfl⟩
      · obtain ⟨shown, split, same⟩ := ih unbroken.2
        have notEnding : c = '\r' → ∀ more, line ++ '\n' :: rest ≠ '\n' :: more := by
          intro ends more broken
          cases line with
          | nil => exact ending ⟨ends, rfl⟩
          | cons d line =>
              cases (List.cons.inj broken).1
              exact unbroken.2 List.mem_cons_self
        refine ⟨c :: shown, ?_, same.imp (congrArg _) (congrArg _)⟩
        rw [List.cons_append, lines_cons (Ne.symm unbroken.1) notEnding, split]

/-! ## Blanks at the end -/

theorem trimEnd_isPrefix (s : List Char) : trimEnd s <+: s := by
  have suffix := List.reverse_prefix.mpr (List.dropWhile_suffix (l := s.reverse) isBlank)
  rw [List.reverse_reverse] at suffix
  exact suffix

variable {blank : Char} (white : isBlank blank = true)

include white

theorem trimEnd_concat (s : List Char) : trimEnd (s ++ [blank]) = trimEnd s := by
  rw [trimEnd, List.reverse_append, List.reverse_singleton, List.singleton_append, List.dropWhile_cons_of_pos white,
    trimEnd]

theorem trim_concat (s : List Char) : trim (s ++ [blank]) = trim s := by
  rw [trim, trimStart, List.dropWhile_append]
  split
  · rename_i nothing
    rw [List.dropWhile_cons_of_pos white, trim, trimStart, List.isEmpty_iff.mp nothing]
    rfl
  · exact trimEnd_concat white _

end PocketBasic.Text
