import PocketBasic.Terminal.Key

/-! # Strings in a settings file

A string stands in double quotes, with escapes, or in single quotes, without any. Three quotes of
either kind begin a string that may run over several lines. Only keys are looked at, and a key is
no such string, so of strings over several lines only the end is found.
-/

namespace PocketBasic.SettingsFile

/-- A space or a tab. -/
def isSpace (c : Char) : Bool := c = ' ' || c = '\t'

def skipSpaces (s : List Char) : List Char := s.dropWhile isSpace

/-- A character that may stand in comments and strings: a tab or no control character. -/
def isText (c : Char) : Bool :=
  c = '\t' || (0x20 ≤ c.toNat && c.toNat ≠ 0x7F)

/-- What follows the end of a line. -/
def lineEnd? : List Char → Option (List Char)
  | '\n' :: rest => some rest
  | '\r' :: '\n' :: rest => some rest
  | _ => none

theorem length_lt_of_lineEnd? {s rest : List Char} (h : lineEnd? s = some rest) :
    rest.length < s.length := by
  unfold lineEnd? at h
  split at h
  · simp_all
  · simp only [Option.some.injEq] at h
    subst h
    simp only [List.length_cons]
    omega
  · simp at h

/-- The value of a hexadecimal digit. -/
def hexValue? (c : Char) : Option Nat :=
  if '0' ≤ c ∧ c ≤ '9' then some (c.toNat - 48)
  else if 'a' ≤ c ∧ c ≤ 'f' then some (c.toNat - 87)
  else if 'A' ≤ c ∧ c ≤ 'F' then some (c.toNat - 55)
  else none

/-- The character with a code point in hexadecimal. -/
def hexChar? (digits : List Char) : Option Char := do
  let values ← digits.mapM hexValue?
  Key.charOf? (values.foldl (fun n d => n * 16 + d) 0)

/-- The character of an escape of one letter. -/
def letterEscape? (c : Char) : Option Char :=
  match c with
  | 'b' => some '\x08'
  | 't' => some '\t'
  | 'n' => some '\n'
  | 'f' => some '\x0c'
  | 'r' => some '\r'
  | '"' => some '"'
  | '\\' => some '\\'
  | _ => none

/-- Reads an escape behind its backslash. -/
def escape? : List Char → Option (Char × List Char)
  | 'u' :: a :: b :: c :: d :: rest => (hexChar? [a, b, c, d]).map fun c => (c, rest)
  | 'U' :: a :: b :: c :: d :: e :: f :: g :: h :: rest =>
      (hexChar? [a, b, c, d, e, f, g, h]).map fun c => (c, rest)
  | c :: rest => (letterEscape? c).map fun c => (c, rest)
  | [] => none

theorem length_lt_of_escape? {s rest : List Char} {c : Char} (h : escape? s = some (c, rest)) :
    rest.length < s.length := by
  unfold escape? at h
  split at h
  · obtain ⟨_, _, h⟩ := Option.map_eq_some_iff.1 h
    simp_all
    omega
  · obtain ⟨_, _, h⟩ := Option.map_eq_some_iff.1 h
    simp_all
    omega
  · obtain ⟨_, _, h⟩ := Option.map_eq_some_iff.1 h
    simp_all
  · simp at h

/-- Reads a string in double quotes behind its opening quote. -/
def basicString? : List Char → Option (List Char × List Char)
  | [] => none
  | c :: rest =>
      if c = '"' then some ([], rest)
      else if c = '\\' then
        match h : escape? rest with
        | none => none
        | some (c, more) =>
            have := length_lt_of_escape? h
            (basicString? more).map fun (text, rest) => (c :: text, rest)
      else if isText c then (basicString? rest).map fun (text, rest) => (c :: text, rest)
      else none
termination_by s => s.length
decreasing_by all_goals (simp only [List.length_cons] at *; omega)

/-- Reads a string in single quotes behind its opening quote. -/
def literalString? : List Char → Option (List Char × List Char)
  | [] => none
  | c :: rest =>
      if c = '\'' then some ([], rest)
      else if isText c then (literalString? rest).map fun (text, rest) => (c :: text, rest)
      else none

/-- What follows the end of a string in three quotes: the first three in a row, of which there may be
    up to five, since the last three of them count. -/
def blockEnd? (quote : Char) (s : List Char) : Option (List Char) :=
  let run := (s.takeWhile (· = quote)).length
  if 3 ≤ run then some (s.drop (min run 5)) else none

/-- What follows a string in three double quotes, from inside it. A backslash may stand at the end of
    a line, before blanks at most. -/
def basicBlock? : List Char → Option (List Char)
  | [] => none
  | c :: rest =>
      match blockEnd? '"' (c :: rest) with
      | some rest => some rest
      | none =>
          if c = '\\' then
            match h : escape? rest with
            | some (_, more) =>
                have := length_lt_of_escape? h
                basicBlock? more
            | none => if (lineEnd? (skipSpaces rest)).isSome then basicBlock? rest else none
          else
            match h : lineEnd? (c :: rest) with
            | some more =>
                have := length_lt_of_lineEnd? h
                basicBlock? more
            | none => if isText c then basicBlock? rest else none
termination_by s => s.length
decreasing_by all_goals (simp only [List.length_cons] at *; omega)

/-- What follows a string in three single quotes, from inside it. -/
def literalBlock? : List Char → Option (List Char)
  | [] => none
  | c :: rest =>
      match blockEnd? '\'' (c :: rest) with
      | some rest => some rest
      | none =>
          match h : lineEnd? (c :: rest) with
          | some more =>
              have := length_lt_of_lineEnd? h
              literalBlock? more
          | none => if isText c then literalBlock? rest else none
termination_by s => s.length
decreasing_by all_goals (simp only [List.length_cons] at *; omega)

/-- What follows a string of any kind, if there is one. -/
def skipString? : List Char → Option (List Char)
  | '"' :: '"' :: '"' :: rest => basicBlock? rest
  | '"' :: rest => (basicString? rest).map (·.2)
  | '\'' :: '\'' :: '\'' :: rest => literalBlock? rest
  | '\'' :: rest => (literalString? rest).map (·.2)
  | _ => none

end PocketBasic.SettingsFile
