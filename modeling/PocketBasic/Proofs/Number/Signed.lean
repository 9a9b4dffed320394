import PocketBasic.Engine.Conversion
import PocketBasic.Proofs.Number.Digits

/-! # Integers with a sign

The literal of an integer is decimal digits with a sign in front of them or without. The reader of an input field goes
through it from left to right in numbers of 64 bits and stops where they do not suffice, so it never sees what comes
behind. An integer of the device is told from any other text all the same. Of the texts that are refused, those that
begin with too long a number are all said to be out of range, whether they are literals or not.
-/

namespace PocketBasic

namespace Number

variable {limit acc n : Nat} {past : IntegerFault} {c : Char} {s digits front : List Char} {z : Int}

/-- Decimal digits, at least one of them, and the number they denote. -/
structure Spells (digits : List Char) (n : Nat) : Prop where
  some : digits ≠ []
  all : ∀ c ∈ digits, c.isDigit = true
  value : Nat.ofDigitChars 10 digits 0 = n

/-- The literals of integers. -/
inductive DenotesInt : List Char → Int → Prop where
  | unsigned {digits : List Char} {n : Nat} : Spells digits n → DenotesInt digits n
  | plus {digits : List Char} {n : Nat} : Spells digits n → DenotesInt ('+' :: digits) n
  | minus {digits : List Char} {n : Nat} : Spells digits n → DenotesInt ('-' :: digits) (-n)

/-- The text begins with a literal, or is one, of an integer that is not between `-limit - 1` and `limit`. -/
def Outgrows (limit : Nat) (s : List Char) : Prop :=
  ∃ front z, front <+: s ∧ DenotesInt front z ∧ (z < -(limit : Int) - 1 ∨ limit < z)

/-! ## Digits -/

theorem Spells.ne_sign (spells : Spells (c :: digits) n) : c ≠ '+' ∧ c ≠ '-' := by
  have digit := spells.all c List.mem_cons_self
  constructor <;> rintro rfl <;> exact absurd digit (by decide)

theorem readMagnitude_eq_ok_iff_spells :
    readMagnitude limit past digits = .ok n ↔ Spells digits n ∧ n ≤ limit := by
  rw [readMagnitude_eq_ok_iff]
  constructor
  · rintro ⟨some, all, value, inside⟩
    exact ⟨⟨some, all, value⟩, inside⟩
  · rintro ⟨⟨some, all, value⟩, inside⟩
    exact ⟨some, all, value, inside⟩

/-- Only two things are wrong with digits: there is one missing, or they are too many. -/
theorem readDigits_fault {fault : IntegerFault} (read : readDigits limit past acc digits = .error fault) :
    fault = past ∨ fault = .invalidDigit := by
  induction digits generalizing acc with
  | nil => simp [readDigits] at read
  | cons c rest ih =>
      simp only [readDigits] at read
      split at read
      · simp_all
      · split at read
        · exact ih read
        · simp_all

/-- The limit is passed exactly if some of the digits in front do so, whatever comes behind them. -/
theorem readDigits_eq_past_iff (other : past ≠ .invalidDigit) (start : acc ≤ limit) :
    readDigits limit past acc digits = .error past ↔
      ∃ front, front <+: digits ∧ (∀ c ∈ front, c.isDigit = true) ∧ limit < Nat.ofDigitChars 10 front acc := by
  induction digits generalizing acc with
  | nil => simp [readDigits, Nat.ofDigitChars, start]
  | cons c rest ih =>
      have step : (∃ front, front <+: c :: rest ∧ (∀ c ∈ front, c.isDigit = true) ∧
            limit < Nat.ofDigitChars 10 front acc) ↔
          c.isDigit = true ∧ ∃ front, front <+: rest ∧ (∀ c ∈ front, c.isDigit = true) ∧
            limit < Nat.ofDigitChars 10 front (acc * 10 + (c.toNat - '0'.toNat)) := by
        constructor
        · rintro ⟨front, first, all, large⟩
          cases front with
          | nil => exact absurd start (Nat.not_le_of_lt large)
          | cons d front =>
              obtain ⟨rfl, behind⟩ := List.cons_prefix_cons.mp first
              obtain ⟨digit, others⟩ := List.forall_mem_cons.mp all
              rw [Nat.ofDigitChars_cons, Nat.mul_comm] at large
              exact ⟨digit, front, behind, others, large⟩
        · rintro ⟨digit, front, behind, others, large⟩
          refine ⟨c :: front, List.cons_prefix_cons.mpr ⟨rfl, behind⟩, List.forall_mem_cons.mpr ⟨digit, others⟩, ?_⟩
          rwa [Nat.ofDigitChars_cons, Nat.mul_comm]
      rw [step]
      cases value : digitValue? c with
      | none =>
          have none : c.isDigit ≠ true := fun digit => by simp [digitValue?_of_isDigit digit] at value
          simp [readDigits, value, none, Ne.symm other]
      | some d =>
          have digit := isDigit_of_digitValue? value
          obtain rfl : c.toNat - '0'.toNat = d := by simpa [digitValue?_of_isDigit digit] using value
          by_cases within : acc * 10 + (c.toNat - '0'.toNat) ≤ limit
          · simp only [readDigits, value, if_pos within, digit, true_and]
            exact ih within
          · simp only [readDigits, value, if_neg within, digit, true_and, true_iff]
            exact ⟨[], List.nil_prefix, by simp, by simpa using within⟩

theorem readMagnitude_fault {fault : IntegerFault} (read : readMagnitude limit past digits = .error fault) :
    fault = past ∨ fault = .invalidDigit := by
  unfold readMagnitude at read
  split at read
  · simp_all
  · exact readDigits_fault read

theorem readMagnitude_eq_past_iff (other : past ≠ .invalidDigit) :
    readMagnitude limit past digits = .error past ↔
      ∃ front n, front <+: digits ∧ Spells front n ∧ limit < n := by
  have nonempty {front : List Char} (large : limit < Nat.ofDigitChars 10 front 0) : front ≠ [] := by
    rintro rfl
    simp at large
  unfold readMagnitude
  split
  · rename_i empty
    obtain rfl := List.isEmpty_iff.mp empty
    simp only [Except.error.injEq, Ne.symm other, List.prefix_nil, false_iff]
    rintro ⟨_, n, rfl, spells, -⟩
    exact spells.some rfl
  · rw [readDigits_eq_past_iff other (Nat.zero_le limit)]
    constructor
    · rintro ⟨front, first, all, large⟩
      exact ⟨front, _, first, ⟨nonempty large, all, rfl⟩, large⟩
    · rintro ⟨front, n, first, ⟨-, all, rfl⟩, large⟩
      exact ⟨front, first, all, large⟩

/-! ## Signs -/

/-- Whether a text has a minus sign in front, and what is behind the sign, if there is one. -/
def unsign : List Char → Bool × List Char
  | '+' :: rest => (false, rest)
  | '-' :: rest => (true, rest)
  | s => (false, s)

/-- The integer of a sign and a number. -/
def signed (negative : Bool) (n : Nat) : Int := if negative then -n else n

/-- The largest number that may stand behind the sign. -/
def room (limit : Nat) (negative : Bool) : Nat := if negative then limit + 1 else limit

/-- The fault of a larger one. -/
def overrun (negative : Bool) : IntegerFault := if negative then .tooSmall else .tooLarge

theorem unsign_of_ne (plus : c ≠ '+') (minus : c ≠ '-') : unsign (c :: s) = (false, c :: s) := by
  simp [unsign, plus, minus]

theorem denotesInt_iff : DenotesInt s z ↔ ∃ n, Spells (unsign s).2 n ∧ z = signed (unsign s).1 n := by
  constructor
  · intro denotes
    cases denotes with
    | unsigned spells =>
        cases s with
        | nil => exact absurd rfl spells.some
        | cons c rest =>
            rw [unsign_of_ne spells.ne_sign.1 spells.ne_sign.2]
            exact ⟨_, spells, rfl⟩
    | plus spells => exact ⟨_, spells, rfl⟩
    | minus spells => exact ⟨_, spells, rfl⟩
  · rintro ⟨n, spells, rfl⟩
    unfold unsign at spells ⊢
    split at spells
    · exact .plus spells
    · exact .minus spells
    · exact .unsigned spells

theorem readInt_eq (some : s ≠ []) :
    readInt limit s =
      (readMagnitude (room limit (unsign s).1) (overrun (unsign s).1) (unsign s).2).map (signed (unsign s).1) := by
  unfold readInt
  split
  case h_1 => exact absurd rfl some
  case h_2 rest =>
    change _ = (readMagnitude limit .tooLarge rest).map (signed false)
    cases readMagnitude limit .tooLarge rest <;> rfl
  case h_3 rest =>
    change _ = (readMagnitude (limit + 1) .tooSmall rest).map (signed true)
    cases readMagnitude (limit + 1) .tooSmall rest <;> rfl
  case h_4 plus minus =>
    obtain ⟨c, rest, rfl⟩ := List.exists_cons_of_ne_nil some
    rw [unsign_of_ne (by rintro rfl; exact plus rest rfl) (by rintro rfl; exact minus rest rfl)]
    change _ = (readMagnitude limit .tooLarge (c :: rest)).map (signed false)
    cases readMagnitude limit .tooLarge (c :: rest) <;> rfl

/-- The beginnings of a text have its sign, if they have a character at all. -/
theorem unsign_of_prefix (first : front <+: s) (some : front ≠ []) :
    (unsign front).1 = (unsign s).1 ∧ (unsign front).2 <+: (unsign s).2 := by
  obtain ⟨c, front, rfl⟩ := List.exists_cons_of_ne_nil some
  obtain ⟨behind, rfl⟩ := first
  rw [List.cons_append]
  by_cases plus : c = '+'
  · subst plus
    exact ⟨rfl, List.prefix_append _ _⟩
  · by_cases minus : c = '-'
    · subst minus
      exact ⟨rfl, List.prefix_append _ _⟩
    · rw [unsign_of_ne plus minus, unsign_of_ne plus minus]
      exact ⟨rfl, List.prefix_append (c :: front) _⟩

theorem exists_unsign_eq (first : front <+: (unsign s).2) (some : front ≠ []) :
    ∃ text, text <+: s ∧ unsign text = ((unsign s).1, front) := by
  cases s with
  | nil => exact absurd (List.prefix_nil.mp first) some
  | cons c rest =>
      by_cases plus : c = '+'
      · subst plus
        exact ⟨'+' :: front, List.cons_prefix_cons.mpr ⟨rfl, first⟩, rfl⟩
      · by_cases minus : c = '-'
        · subst minus
          exact ⟨'-' :: front, List.cons_prefix_cons.mpr ⟨rfl, first⟩, rfl⟩
        · rw [unsign_of_ne plus minus] at first ⊢
          obtain ⟨d, front, rfl⟩ := List.exists_cons_of_ne_nil some
          obtain ⟨rfl, -⟩ := List.cons_prefix_cons.mp first
          exact ⟨d :: front, first, unsign_of_ne plus minus⟩

theorem signed_inside_iff (negative : Bool) :
    (-(limit : Int) - 1 ≤ signed negative n ∧ signed negative n ≤ limit) ↔ n ≤ room limit negative := by
  cases negative <;> simp only [signed, room, if_true, Bool.false_eq_true, if_false] <;> omega

theorem outgrows_iff :
    Outgrows limit s ↔
      ∃ front n, front <+: (unsign s).2 ∧ Spells front n ∧ room limit (unsign s).1 < n := by
  have outside (n : Nat) (negative : Bool) :
      (signed negative n < -(limit : Int) - 1 ∨ limit < signed negative n) ↔ room limit negative < n := by
    rw [← Nat.not_le, ← signed_inside_iff]
    omega
  constructor
  · rintro ⟨text, z, first, denotes, far⟩
    obtain ⟨n, spells, rfl⟩ := denotesInt_iff.mp denotes
    have some : text ≠ [] := by
      rintro rfl
      exact spells.some rfl
    obtain ⟨sign, first⟩ := unsign_of_prefix first some
    exact ⟨_, n, first, spells, sign ▸ (outside n _).mp far⟩
  · rintro ⟨front, n, first, spells, far⟩
    obtain ⟨text, first, parts⟩ := exists_unsign_eq first spells.some
    refine ⟨text, _, first, denotesInt_iff.mpr ⟨n, ?_, rfl⟩, ?_⟩
    · rw [parts]
      exact spells
    · rw [parts]
      exact (outside n _).mpr far

/-! ## Reading -/

theorem not_denotesInt_nil : ¬DenotesInt [] z := by
  rw [denotesInt_iff]
  rintro ⟨n, spells, -⟩
  exact spells.some rfl

/-- An integer is read exactly if the text denotes it and it is within the limits. -/
theorem readInt_eq_ok_iff :
    readInt limit s = .ok z ↔ DenotesInt s z ∧ -(limit : Int) - 1 ≤ z ∧ z ≤ limit := by
  by_cases empty : s = []
  · simp [empty, readInt, not_denotesInt_nil]
  · rw [readInt_eq empty, denotesInt_iff]
    constructor
    · intro read
      cases magnitude : readMagnitude (room limit (unsign s).1) (overrun (unsign s).1) (unsign s).2 with
      | error fault => simp [magnitude, Except.map] at read
      | ok n =>
          obtain rfl : signed (unsign s).1 n = z := by simpa [magnitude, Except.map] using read
          obtain ⟨spells, inside⟩ := readMagnitude_eq_ok_iff_spells.mp magnitude
          exact ⟨⟨n, spells, rfl⟩, (signed_inside_iff _).mpr inside⟩
    · rintro ⟨⟨n, spells, rfl⟩, inside⟩
      rw [readMagnitude_eq_ok_iff_spells.mpr ⟨spells, (signed_inside_iff _).mp inside⟩]
      rfl

theorem overrun_ne (negative : Bool) : overrun negative ≠ .invalidDigit := by cases negative <;> decide

/-- The limits are passed exactly if the text begins with an integer that is not within them. -/
theorem readInt_eq_overrun_iff :
    (readInt limit s = .error .tooLarge ∨ readInt limit s = .error .tooSmall) ↔ Outgrows limit s := by
  by_cases empty : s = []
  · simp only [empty, readInt, Except.error.injEq, reduceCtorEq, or_self, false_iff]
    rintro ⟨front, z, first, denotes, -⟩
    rw [List.prefix_nil.mp first] at denotes
    exact not_denotesInt_nil denotes
  · rw [readInt_eq empty, outgrows_iff, ← readMagnitude_eq_past_iff (overrun_ne (unsign s).1)]
    cases magnitude : readMagnitude (room limit (unsign s).1) (overrun (unsign s).1) (unsign s).2 with
    | ok n => simp [Except.map]
    | error fault =>
        have either := readMagnitude_fault magnitude
        cases negative : (unsign s).1 <;> rw [negative] at either <;> rcases either with rfl | rfl <;>
          simp [Except.map, overrun]

end Number

namespace Conversion

open Number

variable {text : List Char}

theorem integer_eq_ok_iff {n : Int16} : integer text = .ok n ↔ DenotesInt (Text.trim text) n.toInt := by
  have low := n.le_toInt
  have high := n.toInt_lt
  constructor
  · intro converted
    unfold integer at converted
    split at converted
    · rename_i z read
      split at converted
      · obtain rfl := Except.ok.inj converted
        rw [Int16.toInt_ofInt_of_le (by omega) (by omega)]
        exact (readInt_eq_ok_iff.mp read).1
      · cases converted
    all_goals cases converted
  · intro denotes
    have read : readInt maxRead (Text.trim text) = .ok n.toInt :=
      readInt_eq_ok_iff.mpr ⟨denotes, by unfold maxRead; omega, by unfold maxRead; omega⟩
    have device : -32768 ≤ n.toInt ∧ n.toInt ≤ 32767 := by omega
    simp only [integer, read, if_pos device, Int16.ofInt_toInt]

theorem integer_eq_outOfRange_iff :
    integer text = .error .integerOutOfRange ↔
      (∃ z, DenotesInt (Text.trim text) z ∧ (z < -32768 ∨ 32767 < z)) ∨ Outgrows maxRead (Text.trim text) := by
  rw [← readInt_eq_overrun_iff]
  constructor
  · intro refused
    unfold integer at refused
    split at refused
    · rename_i z read
      split at refused
      · cases refused
      · exact .inl ⟨z, (readInt_eq_ok_iff.mp read).1, by omega⟩
    · exact .inr (.inl (by assumption))
    · exact .inr (.inr (by assumption))
    · cases refused
  · rintro (⟨z, denotes, far⟩ | large | small)
    · by_cases inside : -(maxRead : Int) - 1 ≤ z ∧ z ≤ maxRead
      · have outside : ¬(-32768 ≤ z ∧ z ≤ 32767) := by omega
        simp only [integer, readInt_eq_ok_iff.mpr ⟨denotes, inside⟩, if_neg outside]
      · have outgrows : Outgrows maxRead (Text.trim text) := ⟨_, z, List.prefix_refl _, denotes, by omega⟩
        rcases readInt_eq_overrun_iff.mpr outgrows with read | read <;> simp only [integer, read]
    · simp only [integer, large]
    · simp only [integer, small]

theorem integer_cases (text : List Char) :
    (∃ n, integer text = .ok n) ∨ integer text = .error .integerOutOfRange ∨
      integer text = .error .invalidInteger := by
  unfold integer
  split
  · split
    · exact .inl ⟨_, rfl⟩
    · exact .inr (.inl rfl)
  · exact .inr (.inl rfl)
  · exact .inr (.inl rfl)
  · exact .inr (.inr rfl)

theorem integer_eq_invalid_iff :
    integer text = .error .invalidInteger ↔
      (¬∃ z, DenotesInt (Text.trim text) z) ∧ ¬Outgrows maxRead (Text.trim text) := by
  constructor
  · intro refused
    have far : ¬integer text = .error .integerOutOfRange := by simp [refused]
    rw [integer_eq_outOfRange_iff] at far
    refine ⟨?_, fun outgrows => far (.inr outgrows)⟩
    rintro ⟨z, denotes⟩
    by_cases device : -32768 ≤ z ∧ z ≤ 32767
    · have same : (Int16.ofInt z).toInt = z := Int16.toInt_ofInt_of_le (by omega) (by omega)
      rw [← same] at denotes
      simp [integer_eq_ok_iff.mpr denotes] at refused
    · exact far (.inl ⟨z, denotes, by omega⟩)
  · rintro ⟨other, short⟩
    obtain ⟨n, converted⟩ | refused | refused := integer_cases text
    · exact absurd ⟨_, integer_eq_ok_iff.mp converted⟩ other
    · obtain ⟨z, denotes, -⟩ | outgrows := integer_eq_outOfRange_iff.mp refused
      · exact absurd ⟨z, denotes⟩ other
      · exact absurd outgrows short
    · exact refused

/-- An integer field takes the literals of 16-bit integers and nothing else. What it does not take is out of range if
    it is a literal, or begins with one of an integer that has more than 64 bits, and no integer otherwise. So the fault
    is the one of the text exactly if no text but a literal begins like that. -/
theorem integer_faults_iff (text : List Char) :
    let literal := Text.trim text
    let outside := ∃ z, DenotesInt literal z ∧ (z < -32768 ∨ 32767 < z)
    (∀ n, integer text = .ok n ↔ DenotesInt literal n.toInt) ∧
    (integer text = .error .integerOutOfRange ↔ outside ∨ Outgrows maxRead literal) ∧
    (integer text = .error .invalidInteger ↔ (¬∃ z, DenotesInt literal z) ∧ ¬Outgrows maxRead literal) ∧
    ((integer text = .error .integerOutOfRange ↔ outside) ∧
        (integer text = .error .invalidInteger ↔ ¬∃ z, DenotesInt literal z) ↔
      (Outgrows maxRead literal → ∃ z, DenotesInt literal z)) := by
  intro literal outside
  refine ⟨fun n => integer_eq_ok_iff, integer_eq_outOfRange_iff, integer_eq_invalid_iff, ?_⟩
  rw [integer_eq_outOfRange_iff, integer_eq_invalid_iff]
  constructor
  · rintro ⟨-, named⟩ outgrows
    exact Classical.byContradiction fun other => (named.mpr other).2 outgrows
  · intro whole
    refine ⟨⟨?_, .inl⟩, ⟨And.left, fun other => ⟨other, fun outgrows => other (whole outgrows)⟩⟩⟩
    rintro (far | outgrows)
    · exact far
    · obtain ⟨z, denotes⟩ := whole outgrows
      -- A literal that begins like that is out of range as a whole, or it would have been read.
      by_cases near : -32768 ≤ z ∧ z ≤ 32767
      · have read : readInt maxRead literal = .ok z :=
          readInt_eq_ok_iff.mpr ⟨denotes, by unfold maxRead; omega, by unfold maxRead; omega⟩
        rw [← readInt_eq_overrun_iff, read] at outgrows
        simp at outgrows
      · exact ⟨z, denotes, by omega⟩

/-- The number is left before the letter is seen. -/
example : integer "99999999999999999999x".toList = .error .integerOutOfRange := rfl

end Conversion

end PocketBasic
