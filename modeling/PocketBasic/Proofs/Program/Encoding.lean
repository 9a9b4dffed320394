import PocketBasic.Proofs.Engine.Ledger
import PocketBasic.Proofs.Program.TracedRuns
import PocketBasic.Proofs.Text.Bytes

/-! # Encoding typed text

The pocket computer has the ASCII characters, a byte for each, so a text is encoded unit by unit up to the first unit
that is not ASCII. What is wrong with that one depends on the unit behind it alone: everything before it is ASCII, so
it cannot close a surrogate pair. A field takes what can be encoded up to its limit and gives a longer string back.
-/

namespace PocketBasic

namespace Text

/-- What is wrong with a unit that is not ASCII, by the unit that follows it: a surrogate may have its partner there,
    and then the pair stands for a character that the device does not have. -/
def unitError (u : UInt16) (next : Option UInt16) : EncodingError :=
  if isHighSurrogate u then
    match next.filter isLowSurrogate with
    | some v => .invalidChar (pairCodePoint u v)
    | none => .invalidUtf16
  else if isLowSurrogate u then .invalidUtf16
  else .invalidChar u.toNat

/-- The first unit that is not ASCII is at fault in this way. -/
def FirstUnitError (units : List UInt16) (e : EncodingError) : Prop :=
  ∃ before u after, units = before ++ u :: after ∧ (∀ b ∈ before, b < 0x80) ∧ 0x80 ≤ u ∧
    e = unitError u after.head?

/-- The text that ASCII units stand for. -/
def asciiText (units : List UInt16) : List Char := units.map fun u => Char.ofNat u.toNat

variable {units : List UInt16} {u v : UInt16} {text : List Char}

/-! ## ASCII units -/

theorem toNat_ofNat_unit (ascii : u < 0x80) : (Char.ofNat u.toNat).toNat = u.toNat := by
  rw [UInt16.lt_iff_toNat_lt] at ascii
  exact toNat_ofNat (.inl (Nat.lt_trans ascii (by decide)))

theorem ascii_asciiText (ascii : ∀ u ∈ units, u < 0x80) : ∀ c ∈ asciiText units, c.toNat < 128 := by
  intro c member
  obtain ⟨u, inside, rfl⟩ := List.mem_map.mp member
  rw [toNat_ofNat_unit (ascii u inside)]
  exact UInt16.lt_iff_toNat_lt.mp (ascii u inside)

theorem charUnits_ofNat (ascii : u < 0x80) : charUnits (Char.ofNat u.toNat) = [u] := by
  have small := UInt16.lt_iff_toNat_lt.mp ascii
  rw [charUnits, toNat_ofNat_unit ascii, if_pos (Nat.lt_trans small (by decide))]
  simp

theorem toUnits_asciiText (ascii : ∀ u ∈ units, u < 0x80) : toUnits (asciiText units) = units := by
  induction units with
  | nil => rfl
  | cons u rest ih =>
      obtain ⟨first, others⟩ := List.forall_mem_cons.mp ascii
      change charUnits _ ++ toUnits (asciiText rest) = _
      rw [charUnits_ofNat first, ih others, List.singleton_append]

theorem decodeUnits_toUnits_append (text : List Char) (units : List UInt16) :
    decodeUnits (toUnits text ++ units) = text.map some ++ decodeUnits units := by
  induction text with
  | nil => rfl
  | cons c rest ih =>
      rw [toUnits, List.flatMap_cons, List.append_assoc, decodeUnits_append, ← toUnits, ih]
      rfl

/-! ## The first unit at fault -/

theorem pairCodePoint_range (high : isHighSurrogate u = true) (low : isLowSurrogate v = true) :
    0xFFFF < pairCodePoint u v ∧ pairCodePoint u v < 0x110000 := by
  simp only [isHighSurrogate, isLowSurrogate, Bool.and_eq_true, decide_eq_true_eq, UInt16.le_iff_toNat_le,
    UInt16.reduceToNat] at high low
  unfold pairCodePoint
  omega

theorem toNat_ofNat_pair (high : isHighSurrogate u = true) (low : isLowSurrogate v = true) :
    (Char.ofNat (pairCodePoint u v)).toNat = pairCodePoint u v := by
  have range := pairCodePoint_range high low
  exact toNat_ofNat (.inr ⟨by omega, range.2⟩)

theorem toNat_ofNat_single (high : isHighSurrogate u = false) (low : isLowSurrogate u = false) :
    (Char.ofNat u.toNat).toNat = u.toNat := by
  have word := u.toNat_lt
  simp only [isHighSurrogate, isLowSurrogate, Bool.and_eq_false_iff, decide_eq_false_iff_not, UInt16.le_iff_toNat_le,
    UInt16.reduceToNat] at high low
  exact toNat_ofNat (by unfold Nat.isValidChar; omega)

/-- Units that are not all ASCII have a first fault. -/
theorem exists_firstUnitError (wide : ¬∀ u ∈ units, u < 0x80) : ∃ e, FirstUnitError units e := by
  induction units with
  | nil => exact absurd nofun wide
  | cons u rest ih =>
      by_cases ascii : u < 0x80
      · have later : ¬∀ u ∈ rest, u < 0x80 := fun all => wide (List.forall_mem_cons.mpr ⟨ascii, all⟩)
        obtain ⟨e, before, v, after, rfl, small, found⟩ := ih later
        exact ⟨e, u :: before, v, after, rfl, List.forall_mem_cons.mpr ⟨ascii, small⟩, found⟩
      · exact ⟨_, [], u, rest, rfl, nofun, UInt16.not_lt.mp ascii, rfl⟩

end Text

namespace Computer

variable {units : List UInt16} {s : DeviceString} {text : List Char} {e : EncodingError}

/-- Characters in front that the device has make no difference to an error. -/
theorem encodeChars_append_eq_error {more : List (Option Char)} (ascii : ∀ c ∈ text, c.toNat < 128)
    (failed : encodeChars more = .error e) : encodeChars (text.map some ++ more) = .error e := by
  induction text with
  | nil => exact failed
  | cons c rest ih =>
      obtain ⟨first, others⟩ := List.forall_mem_cons.mp ascii
      rw [List.map_cons, List.cons_append, encodeChars, if_pos first, ih others]
      rfl

theorem encodeChars_decodeUnits_of_wide {u : UInt16} (wide : 0x80 ≤ u) (after : List UInt16) :
    encodeChars (Text.decodeUnits (u :: after)) = .error (Text.unitError u after.head?) := by
  -- A unit that does not open a pair is read by itself, in front of others and at the end alike.
  have single (more : List (Option Char))
      (alone : Text.isHighSurrogate u = true → after.head?.filter Text.isLowSurrogate = none) :
      encodeChars ((if Text.isHighSurrogate u || Text.isLowSurrogate u then none else some (Char.ofNat u.toNat)) ::
        more) = .error (Text.unitError u after.head?) := by
    cases high : Text.isHighSurrogate u with
    | true => simp [Text.unitError, high, alone high, encodeChars]
    | false =>
        cases low : Text.isLowSurrogate u with
        | true => simp [Text.unitError, high, low, encodeChars]
        | false =>
            have large : ¬u.toNat < 128 := Nat.not_lt.mpr (UInt16.le_iff_toNat_le.mp wide)
            simp [Text.unitError, high, low, encodeChars, Text.toNat_ofNat_single high low, large]
  cases after with
  | nil => exact single [] fun _ => rfl
  | cons v more =>
      rw [Text.decodeUnits]
      split
      · rename_i both
        obtain ⟨high, low⟩ := (Bool.and_eq_true _ _).mp both
        have range := Text.pairCodePoint_range high low
        rw [encodeChars, Text.toNat_ofNat_pair high low, if_neg (by omega)]
        simp [Text.unitError, high, low, Option.filter_some]
      · rename_i parted
        exact single _ fun high => by simpa [high] using parted

theorem encode_toUnits_eq_ok_iff :
    encode (Text.toUnits text) = .ok s ↔ s = ⟨Text.asciiBytes text⟩ ∧ ∀ c ∈ text, c.toNat < 128 := by
  rw [encode, Text.decodeUnits_toUnits]
  constructor
  · intro encoded
    obtain ⟨bytes, read, rfl⟩ := exists_of_map_ok encoded
    obtain ⟨rfl, ascii⟩ := encodeChars_eq_ok_iff.mp read
    exact ⟨rfl, ascii⟩
  · rintro ⟨rfl, ascii⟩
    rw [encodeChars_eq_ok_iff.mpr ⟨rfl, ascii⟩]
    rfl

theorem encode_of_firstUnitError (first : Text.FirstUnitError units e) : encode units = .error e := by
  obtain ⟨before, u, after, rfl, ascii, wide, rfl⟩ := first
  rw [encode, ← Text.toUnits_asciiText ascii, Text.decodeUnits_toUnits_append,
    encodeChars_append_eq_error (Text.ascii_asciiText ascii) (encodeChars_decodeUnits_of_wide wide after)]
  rfl

/-- ASCII units are encoded as the bytes of their text. -/
theorem encode_eq_ok_iff :
    encode units = .ok s ↔ s = ⟨Text.asciiBytes (Text.asciiText units)⟩ ∧ ∀ u ∈ units, u < 0x80 := by
  by_cases ascii : ∀ u ∈ units, u < 0x80
  · nth_rewrite 1 [← Text.toUnits_asciiText ascii]
    rw [encode_toUnits_eq_ok_iff]
    exact and_congr_right fun _ => iff_of_true (Text.ascii_asciiText ascii) ascii
  · obtain ⟨e, first⟩ := Text.exists_firstUnitError ascii
    rw [encode_of_firstUnitError first]
    exact iff_of_false nofun fun both => ascii both.2

theorem encode_eq_error_iff : encode units = .error e ↔ Text.FirstUnitError units e := by
  refine ⟨fun failed => ?_, encode_of_firstUnitError⟩
  have wide : ¬∀ u ∈ units, u < 0x80 := by
    intro ascii
    rw [encode_eq_ok_iff.mpr ⟨rfl, ascii⟩] at failed
    cases failed
  obtain ⟨e', first⟩ := Text.exists_firstUnitError wide
  rw [encode_of_firstUnitError first] at failed
  cases failed
  exact first

/-- What is encoded is shown as the text of the units. -/
theorem toUnits_toText_of_encode (encoded : encode units = .ok s) : Text.toUnits s.toText = units := by
  obtain ⟨rfl, ascii⟩ := encode_eq_ok_iff.mp encoded
  rw [DeviceString.toText, Text.ofBytesLossy_asciiBytes (Text.ascii_asciiText ascii), Text.toUnits_asciiText ascii]

/-- A device string has a byte for each character of the text. -/
theorem length_of_encode (encoded : encode (Text.toUnits text) = .ok s) : s.length = text.length := by
  obtain ⟨rfl, -⟩ := encode_toUnits_eq_ok_iff.mp encoded
  exact List.length_map _

end Computer

namespace Conversion

open Computer (encode)

variable {text : List Char} {s : DeviceString} {e : EncodingError}

theorem string_of_error (l : Ledger Computer) (failed : encode (Text.toUnits text) = .error e) :
    string l text = (.error (.encoding e), l) := by
  have refused : Engine.encode l (Text.toUnits text) = .error e := failed
  rw [string, refused]

/-- A string that is too long is entered in the books as given back, and no other is. -/
theorem string_of_ok (l : Ledger Computer) (encoded : encode (Text.toUnits text) = .ok s) :
    string l text = if 255 < text.length then
      (.error (.stringTooLong text.length), { l with released := l.released ++ [.string s] }) else (.ok s, l) := by
  have taken : Engine.encode l (Text.toUnits text) = .ok s := encoded
  rw [string, taken, ← Computer.length_of_encode encoded]
  rfl

/-- Units are encoded exactly if all of them are ASCII, and what is shown of the string has the same units. Otherwise
    the first unit that is not ASCII is reported. A field takes a text exactly if it can be encoded and has at most 255
    characters. A longer one is reported with its length, and only then is the encoded string given back. -/
theorem encodes_or_reports_first_fault (units : List UInt16) (text : List Char) (l : Ledger Computer) :
    ((∃ s, encode units = .ok s) ↔ ∀ u ∈ units, u < 0x80) ∧
      (∀ s, encode units = .ok s → Text.toUnits s.toText = units) ∧
      (∀ e, encode units = .error e ↔ Text.FirstUnitError units e) ∧
      let field := string l text
      (∀ s, field.1 = .ok s ↔ encode (Text.toUnits text) = .ok s ∧ text.length ≤ 255) ∧
        (∀ n, field.1 = .error (.stringTooLong n) ↔
          (∃ s, encode (Text.toUnits text) = .ok s) ∧ n = text.length ∧ 255 < n) ∧
        (∀ e, field.1 = .error (.encoding e) ↔ encode (Text.toUnits text) = .error e) ∧
        (∀ s, field.1 = .error (.stringTooLong text.length) → encode (Text.toUnits text) = .ok s →
          field.2 = { l with released := l.released ++ [.string s] }) ∧
        ((∀ n, field.1 ≠ .error (.stringTooLong n)) → field.2 = l) := by
  refine ⟨?_, fun s => Computer.toUnits_toText_of_encode, fun e => Computer.encode_eq_error_iff, ?_⟩
  · simp only [Computer.encode_eq_ok_iff, exists_eq_left]
  · cases encoded : encode (Text.toUnits text) with
    | error e =>
        rw [string_of_error l encoded]
        simp
    | ok s =>
        rw [string_of_ok l encoded]
        by_cases long : 255 < text.length
        · simp [long]
          omega
        · simp [long]
          omega

end Conversion

end PocketBasic
