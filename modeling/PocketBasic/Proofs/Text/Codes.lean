import PocketBasic.Text.Blank
import PocketBasic.Value

/-! # Texts and their codes

A text that is turned into UTF-16 units is read back from them as it was. The device has one byte for an ASCII
character, and reads those back too.
-/

namespace PocketBasic.Text

variable {s : List Char}

theorem code_of_isAlphanum {c : Char} (letter : c.isAlphanum = true) : 48 ≤ c.toNat ∧ c.toNat ≤ 122 := by
  have upper : c.isUpper = true → 65 ≤ c.toNat ∧ c.toNat ≤ 90 := of_decide_eq_true
  have lower : c.isLower = true → 97 ≤ c.toNat ∧ c.toNat ≤ 122 := fun lower =>
    ((Bool.and_eq_true _ _).mp lower).imp of_decide_eq_true of_decide_eq_true
  have digit : c.isDigit = true → 48 ≤ c.toNat ∧ c.toNat ≤ 57 := fun digit =>
    ((Bool.and_eq_true _ _).mp digit).imp of_decide_eq_true of_decide_eq_true
  have kinds : (c.isUpper = true ∨ c.isLower = true) ∨ c.isDigit = true := by
    rw [← Bool.or_eq_true, ← Bool.or_eq_true]
    exact letter
  have ranges := kinds.imp (Or.imp upper lower) digit
  omega

theorem not_isBlank_of_isAlphanum {c : Char} (letter : c.isAlphanum = true) : isBlank c = false := by
  have range := code_of_isAlphanum letter
  simp [isBlank, blankRanges]
  omega

/-! ## Units -/

theorem pairCodePoint_eq {high low : UInt16} {a b : Nat} (first : high.toNat = 0xD800 + a)
    (second : low.toNat = 0xDC00 + b) : pairCodePoint high low = 0x10000 + (a * 0x400 + b) := by
  unfold pairCodePoint
  rw [Nat.sub_eq_of_eq_add' first, Nat.sub_eq_of_eq_add' second]
  exact Nat.add_assoc _ _ _

theorem decodeUnits_append (c : Char) (units : List UInt16) :
    decodeUnits (charUnits c ++ units) = some c :: decodeUnits units := by
  have valid : c.toNat.isValidChar := c.valid
  rw [Nat.isValidChar] at valid
  unfold charUnits
  split
  · have unit : c.toNat.toUInt16.toNat = c.toNat := by
      simp
      omega
    have high : isHighSurrogate c.toNat.toUInt16 = false := by
      simp [isHighSurrogate, UInt16.le_iff_toNat_le, unit]
      omega
    have low : isLowSurrogate c.toNat.toUInt16 = false := by
      simp [isLowSurrogate, UInt16.le_iff_toNat_le, unit]
      omega
    cases units <;> simp [decodeUnits, high, low, unit]
  · rename_i astral
    obtain ⟨o, offset⟩ := Nat.exists_eq_add_of_le (Nat.le_of_not_lt astral)
    have first : (0xD800 + o / 0x400).toUInt16.toNat = 0xD800 + o / 0x400 := by
      simp
      omega
    have second : (0xDC00 + o % 0x400).toUInt16.toNat = 0xDC00 + o % 0x400 := by
      simp
      omega
    have high : isHighSurrogate (0xD800 + o / 0x400).toUInt16 = true := by
      simp [isHighSurrogate, UInt16.le_iff_toNat_le]
      omega
    have low : isLowSurrogate (0xDC00 + o % 0x400).toUInt16 = true := by
      simp [isLowSurrogate, UInt16.le_iff_toNat_le]
      omega
    have pair : pairCodePoint (0xD800 + o / 0x400).toUInt16 (0xDC00 + o % 0x400).toUInt16 = c.toNat := by
      rw [pairCodePoint_eq first second, Nat.div_add_mod']
      exact offset.symm
    rw [offset, Nat.add_sub_cancel_left]
    simp only [List.cons_append, List.nil_append, decodeUnits, high, low, pair, Char.ofNat_toNat, Bool.and_self,
      if_true]

theorem decodeUnits_toUnits (s : List Char) : decodeUnits (toUnits s) = s.map some := by
  induction s with
  | nil => rfl
  | cons c rest ih => rw [toUnits, List.flatMap_cons, decodeUnits_append, List.map_cons, ← toUnits, ih]

theorem ofUnitsLossy_toUnits (s : List Char) : ofUnitsLossy (toUnits s) = s := by
  simp [ofUnitsLossy, decodeUnits_toUnits, Function.comp_def]

/-! ## Bytes -/

/-- The bytes that the device has for ASCII characters. -/
def asciiBytes (s : List Char) : List UInt8 := s.map fun c => c.toNat.toUInt8

theorem ofBytesLossy_asciiBytes (ascii : ∀ c ∈ s, c.toNat < 128) : ofBytesLossy (asciiBytes s) = s := by
  unfold ofBytesLossy asciiBytes
  induction s with
  | nil => simp [decodeBytes]
  | cons c rest ih =>
      rw [List.forall_mem_cons] at ascii
      have code : c.toNat.toUInt8.toNat = c.toNat := by
        simp
        omega
      have single : c.toNat.toUInt8 < 0x80 := by
        rw [UInt8.lt_iff_toNat_lt, code]
        exact ascii.1
      rw [List.map_cons, decodeBytes, front, if_pos single, code, Char.ofNat_toNat]
      exact congrArg (c :: ·) (ih ascii.2)

theorem toBytes_eq_asciiBytes (ascii : ∀ c ∈ s, c.toNat < 128) : toBytes s = asciiBytes s := by
  induction s with
  | nil => rfl
  | cons c rest ih =>
      rw [List.forall_mem_cons] at ascii
      have single : c.utf8Size = 1 := by
        rw [Char.utf8Size_eq_one_iff, UInt32.le_iff_toNat_le]
        exact Nat.le_of_lt_succ ascii.1
      rw [toBytes, List.flatMap_cons, String.utf8EncodeChar_eq_singleton single]
      exact congrArg _ (ih ascii.2)

end PocketBasic.Text
