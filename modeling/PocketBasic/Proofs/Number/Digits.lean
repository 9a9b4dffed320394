import PocketBasic.Number.Integer

/-! # Decimal digits

A number without a sign is read from decimal digits, which may have a plus sign in front of them, if it is within the
limit. There is no other way to write one, but that zeros in front do not count.
-/

namespace PocketBasic.Number

variable {limit acc n : Nat} {past : IntegerFault} {c : Char} {s digits : List Char}

/-- The text is decimal digits, with a plus sign in front of them or without, and they denote the number. -/
def Denotes (s : List Char) (n : Nat) : Prop :=
  ∃ digits, (s = digits ∨ s = '+' :: digits) ∧ digits ≠ [] ∧ (∀ c ∈ digits, c.isDigit = true) ∧
    Nat.ofDigitChars 10 digits 0 = n

theorem digitValue?_of_isDigit {c : Char} (digit : c.isDigit = true) :
    digitValue? c = some (c.toNat - '0'.toNat) := by
  unfold digitValue?
  rw [if_pos]
  simpa [Char.isDigit, Char.le_def] using digit

theorem le_ofDigitChars (digits : List Char) (acc : Nat) : acc ≤ Nat.ofDigitChars 10 digits acc := by
  induction digits generalizing acc with
  | nil => exact Nat.le_refl acc
  | cons c rest ih =>
      rw [Nat.ofDigitChars_cons]
      exact Nat.le_trans (by omega) (ih _)

/-- A number within the limit is read, since no digits in front of it are a larger one. -/
theorem readDigits_of_le {digits : List Char} {acc : Nat} (all : ∀ c ∈ digits, c.isDigit = true)
    (inside : Nat.ofDigitChars 10 digits acc ≤ limit) :
    readDigits limit past acc digits = .ok (Nat.ofDigitChars 10 digits acc) := by
  induction digits generalizing acc with
  | nil => rfl
  | cons c rest ih =>
      obtain ⟨digit, others⟩ := List.forall_mem_cons.mp all
      rw [Nat.ofDigitChars_cons, Nat.mul_comm] at inside ⊢
      have front := Nat.le_trans (le_ofDigitChars rest _) inside
      simp only [readDigits, digitValue?_of_isDigit digit, if_pos front]
      exact ih others inside

theorem isDigit_of_mem_toDigits {c : Char} (member : c ∈ Nat.toDigits 10 n) : c.isDigit = true :=
  Nat.isDigit_of_mem_toDigits (by decide) (by decide) member

theorem readMagnitude_toDigits (inside : n ≤ limit) : readMagnitude limit past (Nat.toDigits 10 n) = .ok n := by
  rw [readMagnitude, if_neg (by simp [Nat.toDigits_ne_nil]), readDigits_of_le fun c => isDigit_of_mem_toDigits]
  · rw [Nat.ofDigitChars_ten_toDigits]
  · rwa [Nat.ofDigitChars_ten_toDigits]

/-! ## What is read as a number -/

theorem isDigit_of_digitValue? {d : Nat} (digit : digitValue? c = some d) : c.isDigit = true := by
  unfold digitValue? at digit
  split at digit
  · rename_i range
    simpa [Char.isDigit, Char.le_def] using range
  · cases digit

theorem readDigits_eq_ok_iff (start : acc ≤ limit) :
    readDigits limit past acc digits = .ok n ↔
      (∀ c ∈ digits, c.isDigit = true) ∧ Nat.ofDigitChars 10 digits acc = n ∧ n ≤ limit := by
  constructor
  · intro read
    induction digits generalizing acc with
    | nil =>
        cases read
        exact ⟨nofun, rfl, start⟩
    | cons c rest ih =>
        cases digit : digitValue? c with
        | none =>
            rw [readDigits, digit] at read
            cases read
        | some d =>
            have isDigit := isDigit_of_digitValue? digit
            have value := digit.symm.trans (digitValue?_of_isDigit isDigit)
            cases value
            by_cases within : acc * 10 + (c.toNat - '0'.toNat) ≤ limit
            · simp only [readDigits, digit, if_pos within] at read
              obtain ⟨all, same, inside⟩ := ih within read
              refine ⟨List.forall_mem_cons.mpr ⟨isDigit, all⟩, ?_, inside⟩
              rw [Nat.ofDigitChars_cons, Nat.mul_comm]
              exact same
            · simp only [readDigits, digit, if_neg within] at read
              cases read
  · rintro ⟨all, rfl, inside⟩
    exact readDigits_of_le all inside

theorem readMagnitude_eq_ok_iff :
    readMagnitude limit past digits = .ok n ↔
      digits ≠ [] ∧ (∀ c ∈ digits, c.isDigit = true) ∧ Nat.ofDigitChars 10 digits 0 = n ∧ n ≤ limit := by
  unfold readMagnitude
  split
  · rename_i empty
    simp [List.isEmpty_iff.mp empty]
  · rename_i digits
    rw [readDigits_eq_ok_iff (Nat.zero_le limit), and_iff_right (mt List.isEmpty_iff.mpr digits)]

/-- A number is read exactly if the text denotes it and it is within the limit. -/
theorem readNat_eq_ok_iff : readNat limit s = .ok n ↔ Denotes s n ∧ n ≤ limit := by
  unfold readNat
  split
  case h_1 =>
    refine ⟨nofun, ?_⟩
    rintro ⟨⟨digits, rfl | signed, some, _⟩, _⟩
    · exact absurd rfl some
    · cases signed
  case h_2 rest =>
    rw [readMagnitude_eq_ok_iff]
    constructor
    · rintro ⟨some, all, same, inside⟩
      exact ⟨⟨rest, .inr rfl, some, all, same⟩, inside⟩
    · rintro ⟨⟨digits, rfl | signed, some, all, same⟩, inside⟩
      · exact absurd (all '+' List.mem_cons_self) (by decide)
      · cases signed
        exact ⟨some, all, same, inside⟩
  case h_3 unsigned =>
    rw [readMagnitude_eq_ok_iff]
    constructor
    · rintro ⟨some, all, same, inside⟩
      exact ⟨⟨s, .inl rfl, some, all, same⟩, inside⟩
    · rintro ⟨⟨digits, rfl | signed, some, all, same⟩, inside⟩
      · exact ⟨some, all, same, inside⟩
      · exact absurd signed (unsigned digits)

theorem denotes_toDigits (n : Nat) : Denotes (Nat.toDigits 10 n) n :=
  ⟨_, .inl rfl, Nat.toDigits_ne_nil, fun _ => isDigit_of_mem_toDigits, Nat.ofDigitChars_ten_toDigits⟩

/-- Digits and the sign are the only characters of a number. -/
theorem Denotes.mem (denotes : Denotes s n) (member : c ∈ s) : c = '+' ∨ c.isDigit = true := by
  obtain ⟨digits, rfl | rfl, -, all, -⟩ := denotes
  · exact .inr (all c member)
  · exact (List.mem_cons.mp member).imp_right (all c)

theorem Denotes.ne_nil (denotes : Denotes s n) : s ≠ [] := by
  obtain ⟨digits, rfl | rfl, some, -⟩ := denotes
  · exact some
  · exact List.cons_ne_nil _ _

end PocketBasic.Number
