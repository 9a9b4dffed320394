/-! # Blank characters

Which characters separate words, and the cutting of text at them. The set is Unicode's
`White_Space` property; a reader of numbers and of program lines uses it, so a number
between two ideographic spaces is still a number.
-/

namespace PocketBasic.Text

/-- Inclusive code point ranges of the Unicode property `White_Space`. -/
def blankRanges : List (Nat × Nat) :=
  [(0x09, 0x0d), (0x20, 0x20), (0x85, 0x85), (0xa0, 0xa0), (0x1680, 0x1680), (0x2000, 0x200a),
   (0x2028, 0x2029), (0x202f, 0x202f), (0x205f, 0x205f), (0x3000, 0x3000)]

/-- A character with the property `White_Space`. -/
def isBlank (c : Char) : Bool :=
  blankRanges.any fun (lo, hi) => decide (lo ≤ c.toNat) && decide (c.toNat ≤ hi)

/-- Text without its leading blanks. -/
def trimStart (s : List Char) : List Char :=
  s.dropWhile isBlank

/-- Text without its trailing blanks. -/
def trimEnd (s : List Char) : List Char :=
  (s.reverse.dropWhile isBlank).reverse

/-- Text without the blanks on either side. -/
def trim (s : List Char) : List Char :=
  trimEnd (trimStart s)

/-- The parts of the text before and after the first character that satisfies `p`, or `none`
    when no character does. -/
def splitFirst (p : Char → Bool) : List Char → Option (List Char × List Char)
  | [] => none
  | c :: rest =>
      if p c then some ([], rest)
      else (splitFirst p rest).map fun (before, after) => (c :: before, after)

/-- The parts of the text between characters that satisfy `p`: one more part than there are such
    characters, empty ones included. -/
def splitAll (p : Char → Bool) : List Char → List (List Char)
  | [] => [[]]
  | c :: rest =>
      if p c then [] :: splitAll p rest
      else
        match splitAll p rest with
        | [] => [[c]]
        | part :: parts => (c :: part) :: parts

/-- The words of a text: its longest runs of characters that are not blank. -/
def words (s : List Char) : List (List Char) :=
  (splitAll isBlank s).filter fun part => !part.isEmpty

/-- The text between a leading `first` and a trailing `last`, which must be two different
    characters of it. -/
def between? (first last : Char) : List Char → Option (List Char)
  | [] => none
  | c :: rest =>
      if c = first then
        match rest.getLast? with
        | some d => if d = last then some rest.dropLast else none
        | none => none
      else none

/-- The rest of the text after a given beginning. -/
def dropStart? (start : List Char) (s : List Char) : Option (List Char) :=
  match start, s with
  | [], rest => some rest
  | _ :: _, [] => none
  | p :: ps, c :: cs => if p = c then dropStart? ps cs else none

/-- The text before a given last character. -/
def dropLast? (last : Char) (s : List Char) : Option (List Char) :=
  match s.getLast? with
  | some d => if d = last then some s.dropLast else none
  | none => none

end PocketBasic.Text
