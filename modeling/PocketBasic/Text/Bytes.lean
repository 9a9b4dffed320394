import PocketBasic.Text.Units

/-! # Text as UTF-8 bytes

Decoding of byte strings. `charAt` reads one sequence from the front; the strict reading
fails where no sequence starts, the lossy one writes a replacement character for the longest piece
that could still have become a sequence and goes on behind it.
-/

namespace PocketBasic.Text

/-- Number of bytes the characters take. -/
def byteLength (s : List Char) : Nat :=
  (s.map Char.utf8Size).foldr (· + ·) 0

/-- The bytes of a text. -/
def toBytes (s : List Char) : List UInt8 :=
  s.flatMap String.utf8EncodeChar

/-- The number of continuation bytes after a leading byte and the range of the first of them:
    sequences that are too long, surrogates and code points past the last are no sequences. -/
def followers (lead : UInt8) : Option (Nat × UInt8 × UInt8) :=
  if lead < 0xC2 then none
  else if lead < 0xE0 then some (1, 0x80, 0xBF)
  else if lead = 0xE0 then some (2, 0xA0, 0xBF)
  else if lead = 0xED then some (2, 0x80, 0x9F)
  else if lead < 0xF0 then some (2, 0x80, 0xBF)
  else if lead = 0xF0 then some (3, 0x90, 0xBF)
  else if lead < 0xF4 then some (3, 0x80, 0xBF)
  else if lead = 0xF4 then some (3, 0x80, 0x8F)
  else none

/-- What the front of a byte string holds. -/
inductive Front where
  /-- A whole character and the number of bytes it takes. -/
  | char (c : Char) (size : Nat)
  /-- So many bytes, at least one, that start a sequence which does not go on. -/
  | broken (size : Nat)
  deriving Repr, DecidableEq

/-- How many of the next `n` bytes continue a sequence, and the code point bits they add to `acc`.
    The first byte must lie in the given range. -/
def continuation (acc : Nat) : Nat → UInt8 → UInt8 → List UInt8 → Nat × Nat
  | 0, _, _, _ => (0, acc)
  | _ + 1, _, _, [] => (0, acc)
  | n + 1, lo, hi, b :: rest =>
      if lo ≤ b && b ≤ hi then
        let (count, code) := continuation (acc * 64 + (b.toNat - 0x80)) n 0x80 0xBF rest
        (count + 1, code)
      else (0, acc)

/-- Reads the sequence that `lead` starts. -/
def front (lead : UInt8) (rest : List UInt8) : Front :=
  if lead < 0x80 then .char (Char.ofNat lead.toNat) 1
  else
    match followers lead with
    | none => .broken 1
    | some (n, lo, hi) =>
        let bits := lead.toNat % (if n = 1 then 32 else if n = 2 then 16 else 8)
        let (count, code) := continuation bits n lo hi rest
        if count = n then .char (Char.ofNat code) (n + 1) else .broken (count + 1)

/-- The characters of a byte string, with `none` for each piece that starts no sequence. -/
def decodeBytes : List UInt8 → List (Option Char)
  | [] => []
  | lead :: rest =>
      match front lead rest with
      | .char c size => some c :: decodeBytes (rest.drop (size - 1))
      | .broken size => none :: decodeBytes (rest.drop (size - 1))
termination_by bytes => bytes.length
decreasing_by all_goals simp only [List.length_drop, List.length_cons]; omega

/-- The text of a byte string, with a replacement character for each broken piece. -/
def ofBytesLossy (bytes : List UInt8) : List Char :=
  (decodeBytes bytes).map (·.getD replacementChar)

/-- The text of a well-formed byte string. -/
def ofBytes? (bytes : List UInt8) : Option (List Char) :=
  (decodeBytes bytes).mapM id

end PocketBasic.Text
