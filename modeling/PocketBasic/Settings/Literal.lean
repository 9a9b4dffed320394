import PocketBasic.Number.Literal
import PocketBasic.Settings.Moment
import PocketBasic.Settings.Quoted
import PocketBasic.Text.Blank

/-! # Values in a settings file

A settings file is a TOML document. This module reads the values that can stand in one: integers in
four bases, booleans, strings, floats, dates and times, arrays and inline tables. No setting is
a string, a float or a date, so of those only the form is checked. Values nest less than eighty deep.
-/

namespace PocketBasic.SettingsFile

/-- A value. -/
inductive Literal where
  | integer (n : Int)
  | boolean (b : Bool)
  /-- A well-formed value that is no setting. -/
  | other
  | array (items : List Literal)
  | table (entries : List (List String × Literal))

/-- Skips blanks, comments and line ends. -/
def skipTrivia (inComment : Bool) : List Char → List Char
  | [] => []
  | '\n' :: rest => skipTrivia false rest
  | '\r' :: '\n' :: rest => skipTrivia false rest
  | c :: rest =>
      if inComment then if isText c then skipTrivia true rest else c :: rest
      else if isSpace c then skipTrivia false rest
      else if c = '#' then skipTrivia true rest
      else c :: rest

/-- Skips a comment and the end of the line. -/
def endOfLine? (s : List Char) : Option (List Char) :=
  let rest := match skipSpaces s with
    | '#' :: comment => comment.dropWhile isText
    | rest => rest
  if rest.isEmpty then some [] else lineEnd? rest

/-- A character of a key without quotes. -/
def isBare (c : Char) : Bool := c.isAlphanum || c = '_' || c = '-'

/-- Reads one part of a key. -/
def keyPart? (s : List Char) : Option (String × List Char) :=
  match s with
  | '"' :: rest => (basicString? rest).map fun (text, rest) => (String.ofList text, rest)
  | '\'' :: rest => (literalString? rest).map fun (text, rest) => (String.ofList text, rest)
  | _ =>
      let part := s.takeWhile isBare
      if part.isEmpty then none else some (String.ofList part, s.dropWhile isBare)

/-- Nothing nests so deep, and no key has so many parts. -/
def depthLimit : Nat := 80

/-- Reads the parts of a key between points, so many of them at most. -/
def keyParts? : Nat → List Char → Option (List String × List Char)
  | 0, _ => none
  | count + 1, s => do
      let (part, rest) ← keyPart? s
      match skipSpaces rest with
      | '.' :: rest =>
          let (parts, rest) ← keyParts? count (skipSpaces rest)
          some (part :: parts, rest)
      | rest => some ([part], rest)

/-- Reads a key. -/
def key? (s : List Char) : Option (List String × List Char) := keyParts? (depthLimit - 1) s

/-- Digits with single underscores between them, without the underscores. -/
def digits? (isDigit : Char → Bool) (s : List Char) : Option (List Char) :=
  let groups := Text.splitAll (· = '_') s
  if groups.all fun g => !g.isEmpty && g.all isDigit then some groups.flatten else none

/-- The number that digits denote in a base. -/
def ofBase (base : Nat) (ds : List Char) : Nat :=
  ds.foldl (fun n d => n * base + (hexValue? d).getD 0) 0

/-- A digit of a base. -/
def isDigitOf (base : Nat) (c : Char) : Bool :=
  match hexValue? c with
  | some d => d < base
  | none => false

/-- Decimal digits without a needless zero in front. -/
def decimal? (s : List Char) : Option (List Char) := do
  let ds ← digits? (isDigitOf 10) s
  if ds.headD ' ' = '0' && ds.length ≠ 1 then none else some ds

/-- An integer before its range is checked. -/
def unboundedInteger? : List Char → Option Int
  | '0' :: 'x' :: rest => (digits? (isDigitOf 16) rest).map fun ds => (ofBase 16 ds : Int)
  | '0' :: 'o' :: rest => (digits? (isDigitOf 8) rest).map fun ds => (ofBase 8 ds : Int)
  | '0' :: 'b' :: rest => (digits? (isDigitOf 2) rest).map fun ds => (ofBase 2 ds : Int)
  | '+' :: rest => (decimal? rest).map fun ds => (ofBase 10 ds : Int)
  | '-' :: rest => (decimal? rest).map fun ds => -(ofBase 10 ds : Int)
  | s => (decimal? s).map fun ds => (ofBase 10 ds : Int)

/-- A signed 64-bit integer. -/
def integer? (s : List Char) : Option Int := do
  let n ← unboundedInteger? s
  if -9223372036854775808 ≤ n ∧ n ≤ 9223372036854775807 then some n else none

/-- The form of a float without its sign. -/
def isUnsignedFloat (s : List Char) : Bool :=
  let isE := fun c => c = 'e' || c = 'E'
  let mantissa := (Text.splitFirst isE s).elim s (·.1)
  let exponentOk := match Text.splitFirst isE s with
    | none => true
    | some (_, e) =>
        let body := match e with
          | '+' :: r => r
          | '-' :: r => r
          | r => r
        (digits? (isDigitOf 10) body).isSome
  let mantissaOk := match Text.splitFirst (· = '.') mantissa with
    | none => (decimal? mantissa).isSome && (Text.splitFirst isE s).isSome
    | some (whole, fraction) =>
        (decimal? whole).isSome && (digits? (isDigitOf 10) fraction).isSome
  mantissaOk && exponentOk

/-- The form and the range of a float. Of the numbers past the largest one only the negative ones
    are let in. -/
def isFloat (s : List Char) : Bool :=
  let body := match s with
    | '+' :: rest => rest
    | '-' :: rest => rest
    | s => s
  body = "inf".toList || body = "nan".toList ||
    (isUnsignedFloat body &&
      match Number.real? (s.filter (· ≠ '_')) with
      | some x => x.isFinite || x.isNegative
      | none => false)

/-- A value written as one word. -/
def word? (s : List Char) : Option Literal :=
  if s = "true".toList then some (.boolean true)
  else if s = "false".toList then some (.boolean false)
  else
    match integer? s with
    | some n => some (.integer n)
    | none => if isFloat s then some .other else none

/-- Ends a word. -/
def isWordEnd (c : Char) : Bool :=
  [' ', '\t', ',', ']', '}', '#', '\r', '\n'].contains c

/-- Reads a value without parts. -/
def scalar? (s : List Char) : Option (Literal × List Char) :=
  match skipString? s with
  | some rest => some (.other, rest)
  | none =>
      match skipMoment? s with
      | some rest => some (.other, rest)
      | none =>
          (word? (s.takeWhile fun c => !isWordEnd c)).map fun v =>
            (v, s.dropWhile fun c => !isWordEnd c)

/-- No key names what another one has put a value into or has made a table of. -/
def keysApart : List (List String) → Bool
  | [] => true
  | key :: keys =>
      keys.all (fun other => !key.isPrefixOf other && !other.isPrefixOf key) && keysApart keys

/-- A table with these entries, if their keys get along. -/
def tableOf? (entries : List (List String × Literal)) : Option Literal :=
  if keysApart (entries.map (·.1)) then some (.table entries) else none

mutual

/-- Reads a value. `fuel` bounds the characters, of which every step reads one, and `depth` the arrays
    and tables around one another. -/
def value? (fuel depth : Nat) (s : List Char) : Option (Literal × List Char) :=
  match fuel, depth, s with
  | 0, _, _ => none
  | _, 0, '[' :: _ => none
  | _, 0, '\x7b' :: _ => none
  | fuel + 1, depth + 1, '[' :: rest =>
      (items? fuel depth rest).map fun (xs, rest) => (.array xs, rest)
  | fuel + 1, depth + 1, '\x7b' :: rest =>
      match skipSpaces rest with
      | '\x7d' :: rest => some (.table [], rest)
      | rest =>
          match entries? fuel depth rest with
          | some (entries, rest) => (tableOf? entries).map fun t => (t, rest)
          | none => none
  | _ + 1, _, s => scalar? s

/-- Reads the items of an array and its closing bracket. A comma may follow the last item. -/
def items? (fuel depth : Nat) (s : List Char) : Option (List Literal × List Char) :=
  match fuel with
  | 0 => none
  | fuel + 1 =>
      match skipTrivia false s with
      | ']' :: rest => some ([], rest)
      | s =>
          match value? fuel depth s with
          | none => none
          | some (v, rest) =>
              match skipTrivia false rest with
              | ',' :: rest => (items? fuel depth rest).map fun (vs, rest) => (v :: vs, rest)
              | ']' :: rest => some ([v], rest)
              | _ => none

/-- Reads the entries of an inline table, of which there is at least one, and its closing brace. -/
def entries? (fuel depth : Nat) (s : List Char) :
    Option (List (List String × Literal) × List Char) :=
  match fuel with
  | 0 => none
  | fuel + 1 =>
      match key? (skipSpaces s) with
      | some (key, '=' :: rest) =>
          match value? fuel depth (skipSpaces rest) with
          | none => none
          | some (v, rest) =>
              match skipSpaces rest with
              | ',' :: rest =>
                  (entries? fuel depth rest).map fun (es, rest) => ((key, v) :: es, rest)
              | '\x7d' :: rest => some ([(key, v)], rest)
              | _ => none
      | _ => none

end

end PocketBasic.SettingsFile
