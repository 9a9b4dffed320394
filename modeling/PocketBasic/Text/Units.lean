/-! # Text as UTF-16 units

Dialog text reaches the engine as 16-bit units. A character outside the basic plane takes two of
them, a high surrogate and a low one; any other surrogate is unpaired and stands for no character.
-/

namespace PocketBasic.Text

/-- A unit that may open a pair. -/
def isHighSurrogate (u : UInt16) : Bool :=
  0xD800 ≤ u && u ≤ 0xDBFF

/-- A unit that may close a pair. -/
def isLowSurrogate (u : UInt16) : Bool :=
  0xDC00 ≤ u && u ≤ 0xDFFF

/-- The code point a surrogate pair stands for. -/
def pairCodePoint (high low : UInt16) : Nat :=
  0x10000 + (high.toNat - 0xD800) * 0x400 + (low.toNat - 0xDC00)

/-- The units of one character. -/
def charUnits (c : Char) : List UInt16 :=
  if c.toNat < 0x10000 then [c.toNat.toUInt16]
  else
    let offset := c.toNat - 0x10000
    [(0xD800 + offset / 0x400).toUInt16, (0xDC00 + offset % 0x400).toUInt16]

/-- The units of a text. -/
def toUnits (s : List Char) : List UInt16 :=
  s.flatMap charUnits

/-- Reads units from left to right; an unpaired surrogate gives `none` in its place. -/
def decodeUnits : List UInt16 → List (Option Char)
  | [] => []
  | [u] => [if isHighSurrogate u || isLowSurrogate u then none else some (Char.ofNat u.toNat)]
  | u :: v :: rest =>
      if isHighSurrogate u && isLowSurrogate v then
        some (Char.ofNat (pairCodePoint u v)) :: decodeUnits rest
      else
        (if isHighSurrogate u || isLowSurrogate u then none else some (Char.ofNat u.toNat)) ::
          decodeUnits (v :: rest)

/-- The character written for anything that cannot be decoded. -/
def replacementChar : Char := '\uFFFD'

/-- The text of the units, with a replacement character for each unpaired surrogate. -/
def ofUnitsLossy (units : List UInt16) : List Char :=
  (decodeUnits units).map (·.getD replacementChar)

end PocketBasic.Text
