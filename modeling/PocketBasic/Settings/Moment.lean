import PocketBasic.Number.Integer

/-! # Dates and times in a settings file

A date is `1979-05-27`, a time `07:32:00` with any number of decimals. A date may be followed by `T` or a
space and a time, and these by `Z` or an offset such as `+02:00`. No setting is a date or a time, so
only the end of one is found.
-/

namespace PocketBasic.SettingsFile

/-- Reads a number of exactly so many decimal digits. -/
def fixedNumber? (width : Nat) (s : List Char) : Option (Nat × List Char) :=
  let ds := s.take width
  if ds.length = width ∧ ds.all (fun c => (Number.digitValue? c).isSome) then
    some (Number.ofDigits ds, s.drop width)
  else none

/-- Reads a number of two digits within bounds. -/
def twoDigits? (low high : Nat) (s : List Char) : Option (Nat × List Char) :=
  match fixedNumber? 2 s with
  | some (n, rest) => if low ≤ n ∧ n ≤ high then some (n, rest) else none
  | none => none

/-- What follows a character, if it stands there. -/
def expect? (c : Char) : List Char → Option (List Char)
  | d :: rest => if d = c then some rest else none
  | [] => none

/-- Days of a month. Every fourth year is a leap year, but of the full hundreds only every
    fourth. -/
def daysOf (year month : Nat) : Nat :=
  if month = 2 then
    if year % 4 = 0 ∧ (year % 100 ≠ 0 ∨ year % 400 = 0) then 29 else 28
  else if month = 4 ∨ month = 6 ∨ month = 9 ∨ month = 11 then 30
  else 31

/-- What follows a date. -/
def date? (s : List Char) : Option (List Char) := do
  let (year, s) ← fixedNumber? 4 s
  let (month, s) ← twoDigits? 1 12 (← expect? '-' s)
  let (day, s) ← twoDigits? 1 31 (← expect? '-' s)
  if day ≤ daysOf year month then some s else none

/-- What follows the decimals of a second, if there are any. -/
def skipDecimals (s : List Char) : List Char :=
  match s with
  | '.' :: rest =>
      let isDigit := fun c => (Number.digitValue? c).isSome
      if (rest.takeWhile isDigit).isEmpty then s else rest.dropWhile isDigit
  | _ => s

/-- What follows a time of the day. A minute may have a leap second. -/
def time? (s : List Char) : Option (List Char) := do
  let (_, s) ← twoDigits? 0 23 s
  let (_, s) ← twoDigits? 0 59 (← expect? ':' s)
  let (_, s) ← twoDigits? 0 60 (← expect? ':' s)
  some (skipDecimals s)

/-- What follows an offset from universal time. -/
def offset? : List Char → Option (List Char)
  | [] => none
  | c :: s =>
      if c = 'Z' ∨ c = 'z' then some s
      else if c = '+' ∨ c = '-' then do
        let (_, s) ← twoDigits? 0 23 s
        let (_, s) ← twoDigits? 0 59 (← expect? ':' s)
        some s
      else none

/-- What follows a time and its offset, behind a date, or `s` when there is no time. -/
def skipTime (s : List Char) : List Char :=
  match s with
  | c :: rest =>
      if c = 'T' ∨ c = 't' ∨ c = ' ' then
        match time? rest with
        | some rest => (offset? rest).getD rest
        | none => s
      else s
  | [] => s

/-- What follows a date, a time or both. -/
def skipMoment? (s : List Char) : Option (List Char) :=
  match date? s with
  | some rest => some (skipTime rest)
  | none => time? s

end PocketBasic.SettingsFile
