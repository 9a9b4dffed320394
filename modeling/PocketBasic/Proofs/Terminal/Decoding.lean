import PocketBasic.Proofs.Number.Digits
import PocketBasic.Proofs.Text.Bytes
import PocketBasic.Proofs.Text.Codes
import PocketBasic.Terminal.Key

/-! # Decoding what terminals send

A terminal has two encodings of a character, and both are decoded as the character, unless it is a control character. A
mouse report is decoded as what it reports, however its numbers are spelled. What looks like a mouse report
and is not one stays as it came.
-/

namespace PocketBasic

open Text Number

namespace Text

variable {p : Char → Bool} {s front rest : List Char} {c : Char} {parts : List (List Char)}

theorem splitAll_ne_nil (p : Char → Bool) (s : List Char) : splitAll p s ≠ [] := by
  cases s with
  | nil => exact List.cons_ne_nil _ _
  | cons c rest =>
      unfold splitAll
      split
      · exact List.cons_ne_nil _ _
      · split <;> exact List.cons_ne_nil _ _

theorem splitAll_cons (plain : p c = false) (split : splitAll p rest = front :: parts) :
    splitAll p (c :: rest) = (c :: front) :: parts := by
  simp [splitAll, plain, split]

theorem splitAll_of_forall (plain : ∀ c ∈ s, p c = false) : splitAll p s = [s] := by
  induction s with
  | nil => rfl
  | cons c rest ih =>
      rw [List.forall_mem_cons] at plain
      exact splitAll_cons plain.1 (ih plain.2)

theorem splitAll_append_cons (plain : ∀ c ∈ front, p c = false) (separator : p c = true) :
    splitAll p (front ++ c :: rest) = front :: splitAll p rest := by
  induction front with
  | nil => simp [splitAll, separator]
  | cons d front ih =>
      rw [List.forall_mem_cons] at plain
      exact splitAll_cons plain.1 (ih plain.2)

end Text

namespace Key

variable {s : List Char} {parts : List (List Char)} {c : Char} {n code modifiers : Nat} {final : UInt8}
  {body bytes : List UInt8}

/-! ## Sequences -/

theorem fields_intercalate (some : parts ≠ []) (plain : ∀ part ∈ parts, ';' ∉ part) :
    fields ([';'].intercalate parts) = parts := by
  induction parts with
  | nil => exact absurd rfl some
  | cons part parts ih =>
      rw [List.forall_mem_cons] at plain
      have free : ∀ c ∈ part, decide (c = ';') = false := fun c member =>
        decide_eq_false fun same => plain.1 (same ▸ member)
      cases parts with
      | nil => simpa [fields] using splitAll_of_forall free
      | cons next parts =>
          rw [List.intercalate_cons_cons, List.append_assoc, List.singleton_append, fields,
            splitAll_append_cons free (decide_eq_true rfl)]
          exact congrArg _ (ih (List.cons_ne_nil _ _) plain.2)

theorem intercalate_fields (s : List Char) : [';'].intercalate (fields s) = s ∧ ∀ part ∈ fields s, ';' ∉ part := by
  unfold fields
  induction s with
  | nil => exact ⟨rfl, by simp [splitAll]⟩
  | cons c rest ih =>
      obtain ⟨joined, plain⟩ := ih
      obtain ⟨part, parts, split⟩ := List.exists_cons_of_ne_nil (splitAll_ne_nil (· = ';') rest)
      rw [split] at joined plain
      by_cases separator : c = ';'
      · rw [splitAll, if_pos (decide_eq_true separator), split, List.intercalate_cons_cons, joined, separator]
        exact ⟨rfl, List.forall_mem_cons.mpr ⟨List.not_mem_nil, plain⟩⟩
      · rw [splitAll_cons (decide_eq_false separator) split]
        rw [List.forall_mem_cons] at plain ⊢
        refine ⟨?_, ?_, plain.2⟩
        · rw [← joined]
          cases parts <;> simp [List.intercalate_cons_cons]
        · rw [List.mem_cons, not_or]
          exact ⟨Ne.symm separator, plain.1⟩

/-- The fields of a text are what it has between semicolons. -/
theorem fields_eq_iff : fields s = parts ↔ parts ≠ [] ∧ (∀ part ∈ parts, ';' ∉ part) ∧ s = [';'].intercalate parts := by
  constructor
  · rintro rfl
    exact ⟨splitAll_ne_nil _ _, (intercalate_fields s).2, (intercalate_fields s).1.symm⟩
  · rintro ⟨some, plain, rfl⟩
    exact fields_intercalate some plain

/-- The fields of a sequence, with semicolons between them, and its final byte. -/
def sequence (parts : List (List Char)) (final : UInt8) : List UInt8 := toBytes ([';'].intercalate parts) ++ [final]

/-- A sequence is taken apart into its fields and its final byte. -/
theorem eq_sequence_iff :
    (body.getLast? = some final ∧ (ofBytes? body.dropLast).map fields = some parts) ↔
      body = sequence parts final ∧ parts ≠ [] ∧ ∀ part ∈ parts, ';' ∉ part := by
  simp only [List.getLast?_eq_some_iff, Option.map_eq_some_iff, ofBytes?_eq_some_iff]
  constructor
  · rintro ⟨⟨_, rfl⟩, text, read, split⟩
    obtain ⟨some, plain, rfl⟩ := fields_eq_iff.mp split
    rw [List.dropLast_concat] at read
    rw [sequence, read]
    exact ⟨rfl, some, plain⟩
  · rintro ⟨rfl, some, plain⟩
    exact ⟨⟨_, rfl⟩, _, List.dropLast_concat, fields_eq_iff.mpr ⟨some, plain, rfl⟩⟩

theorem not_mem_of_denotes (denotes : Denotes s n) : ';' ∉ s := by
  intro member
  rcases denotes.mem member with same | digit
  · exact absurd same (by decide)
  · exact absurd digit (by decide)

theorem toOption_readNat_eq_some_iff {limit : Nat} :
    (readNat limit s).toOption = some n ↔ Denotes s n ∧ n ≤ limit := by
  rw [← readNat_eq_ok_iff]
  cases readNat limit s <;> simp [Except.toOption]

/-! ## Mouse reports -/

end Key

/-- The number of a button in a report. -/
def MouseButton.code : MouseButton → Nat
  | .left => 0
  | .middle => 1
  | .right => 2
  | .none => 3
  | .wheelUp => 64
  | .wheelDown => 65

/-- The keys that are held down while the mouse is used. -/
structure Modifiers where
  shift : Bool
  alt : Bool
  control : Bool
  deriving Repr, DecidableEq

namespace MouseReport

/-- The first number of a report: the button, the keys that are held and whether the mouse has moved. -/
def code (report : MouseReport) (held : Modifiers) : Nat :=
  report.button.code + 4 * held.shift.toNat + 8 * held.alt.toNat + 16 * held.control.toNat + 32 * report.motion.toNat

/-- No two parts of the number have a bit in common. -/
theorem bits_of_code (report : MouseReport) (held : Modifiers) :
    report.code held ≤ 125 ∧ report.code held % 4 = report.button.code % 4 ∧
      report.code held / 64 % 2 = report.button.code / 64 ∧ report.code held / 32 % 2 = report.motion.toNat := by
  have button : report.button.code < 4 ∨ report.button.code = 64 ∨ report.button.code = 65 := by
    cases report.button <;> decide
  have shift := held.shift.toNat_le
  have alt := held.alt.toNat_le
  have control := held.control.toNat_le
  have motion := report.motion.toNat_le
  unfold code
  omega

theorem buttonOf_code (report : MouseReport) (held : Modifiers) : Key.buttonOf (report.code held) = report.button := by
  obtain ⟨-, low, wheel, -⟩ := bits_of_code report held
  rw [Key.buttonOf, Key.hasBit, low, wheel]
  cases report.button <;> rfl

theorem hasBit_code (report : MouseReport) (held : Modifiers) : Key.hasBit (report.code held) 32 = report.motion := by
  obtain ⟨-, -, -, motion⟩ := bits_of_code report held
  rw [Key.hasBit, motion]
  cases report.motion <;> rfl

end MouseReport

namespace Key

/-- The final byte of a report: `M` for a press and `m` for a release. -/
def finalOf (pressed : Bool) : UInt8 := if pressed then 77 else 109

/-- What the fields of a report say. -/
def reported? (pressed : Bool) (parts : List (List Char)) : Option MouseReport :=
  match parts.map fun part => (readNat 65535 part).toOption with
  | [some code, some col, some row] => some ⟨buttonOf code, row, col, pressed, hasBit code 32⟩
  | _ => none

/-- The fields spell the numbers of the report. -/
def Spells (report : MouseReport) (parts : List (List Char)) : Prop :=
  ∃ first second third n, parts = [first, second, third] ∧ (Denotes first n ∧ n ≤ 65535) ∧
    (Denotes second report.col ∧ report.col ≤ 65535) ∧ (Denotes third report.row ∧ report.row ≤ 65535) ∧
    buttonOf n = report.button ∧ hasBit n 32 = report.motion

variable {report : MouseReport} {pressed : Bool}

theorem reported?_eq_some_iff : reported? pressed parts = some report ↔ Spells report parts ∧ report.pressed = pressed := by
  unfold reported?
  constructor
  · intro read
    split at read
    case h_2 => cases read
    case h_1 code col row numbers =>
      cases read
      simp only [List.map_eq_cons_iff, List.map_eq_nil_iff, toOption_readNat_eq_some_iff] at numbers
      obtain ⟨first, _, rfl, code, second, _, rfl, col, third, _, rfl, row, rfl⟩ := numbers
      exact ⟨⟨first, second, third, _, rfl, code, col, row, rfl, rfl⟩, rfl⟩
  · rintro ⟨⟨first, second, third, n, rfl, code, col, row, button, motion⟩, rfl⟩
    rw [← toOption_readNat_eq_some_iff] at code col row
    simp [code, col, row, button, motion]

theorem Spells.plain (spells : Spells report parts) : parts ≠ [] ∧ ∀ part ∈ parts, ';' ∉ part := by
  obtain ⟨first, second, third, n, rfl, ⟨code, _⟩, ⟨col, _⟩, ⟨row, _⟩, _⟩ := spells
  simp [not_mem_of_denotes code, not_mem_of_denotes col, not_mem_of_denotes row]

theorem mouse?_of_final (last : body.getLast? = some (finalOf pressed)) :
    mouse? body = ((ofBytes? body.dropLast).map fields).bind (reported? pressed) := by
  cases pressed <;> simp [mouse?, last, finalOf, Option.bind_map] <;> rfl

theorem exists_final_of_mouse? (read : mouse? body = some report) : ∃ pressed, body.getLast? = some (finalOf pressed) := by
  obtain ⟨final, last, read⟩ := Option.bind_eq_some_iff.mp read
  by_cases down : final = 77
  · exact ⟨true, by rw [last, down]; rfl⟩
  · by_cases up : final = 109
    · exact ⟨false, by rw [last, up]; rfl⟩
    · simp [down, up] at read

/-- A mouse report is the sequence of the fields that spell it. -/
theorem mouse?_eq_some_iff :
    mouse? body = some report ↔ ∃ parts, Spells report parts ∧ body = sequence parts (finalOf report.pressed) := by
  constructor
  · intro read
    obtain ⟨pressed, last⟩ := exists_final_of_mouse? read
    rw [mouse?_of_final last, Option.bind_eq_some_iff] at read
    obtain ⟨parts, split, read⟩ := read
    obtain ⟨spells, rfl⟩ := reported?_eq_some_iff.mp read
    exact ⟨parts, spells, (eq_sequence_iff.mp ⟨last, split⟩).1⟩
  · rintro ⟨parts, spells, whole⟩
    obtain ⟨last, split⟩ := eq_sequence_iff.mpr ⟨whole, spells.plain⟩
    rw [mouse?_of_final last, split, Option.bind_some]
    exact reported?_eq_some_iff.mpr ⟨spells, rfl⟩

/-- The bytes are three fields that spell 16-bit numbers, and the final byte of a report. -/
def IsReport (body : List UInt8) : Prop :=
  ∃ first second third final, body = sequence [first, second, third] final ∧ (final = 77 ∨ final = 109) ∧
    ∀ part ∈ [first, second, third], ∃ n ≤ 65535, Denotes part n

theorem isReport_iff : IsReport body ↔ ∃ report, mouse? body = some report := by
  simp only [mouse?_eq_some_iff]
  constructor
  · rintro ⟨first, second, third, final, whole, finish, numbers⟩
    simp only [List.forall_mem_cons] at numbers
    obtain ⟨⟨code, small, codes⟩, ⟨col, narrow, cols⟩, ⟨row, low, rows⟩, -⟩ := numbers
    refine ⟨⟨buttonOf code, row, col, final = 77, hasBit code 32⟩, [first, second, third],
      ⟨first, second, third, code, rfl, ⟨codes, small⟩, ⟨cols, narrow⟩, ⟨rows, low⟩, rfl, rfl⟩, ?_⟩
    rw [whole]
    rcases finish with rfl | rfl <;> rfl
  · rintro ⟨report, parts, ⟨first, second, third, n, rfl, code, col, row, -⟩, whole⟩
    refine ⟨first, second, third, _, whole, ?_, ?_⟩
    · cases report.pressed
      · exact .inr rfl
      · exact .inl rfl
    · simp only [List.forall_mem_cons]
      exact ⟨⟨n, code.2, code.1⟩, ⟨_, col.2, col.1⟩, ⟨_, row.2, row.1⟩, nofun⟩

theorem ofBytes_report (body : List UInt8) :
    ofBytes (27 :: 91 :: 60 :: body) = ((mouse? body).map .mouse).getD (.unknown (27 :: 91 :: 60 :: body)) := rfl

/-! ## Code points -/

theorem charOf?_eq_some_iff : charOf? code = some c ↔ c.toNat = code := by
  by_cases valid : code.isValidChar
  · rw [charOf?, dif_pos valid, Option.some.injEq]
    constructor
    · rintro rfl
      rfl
    · rintro rfl
      exact Char.ext rfl
  · rw [charOf?, dif_neg valid]
    refine ⟨nofun, ?_⟩
    rintro rfl
    exact absurd c.valid valid

/-- The code points that stand for keys of their own. -/
def NamesKey (code modifiers : Nat) : Prop :=
  code = 13 ∨ code = 27 ∨ code = 9 ∨ code = 127 ∨ code = 32 ∧ hasBit (modifiers - 1) 1 = true

theorem ofCodePoint?_of_namesKey (named : NamesKey code modifiers) : ofCodePoint? code modifiers ≠ some (.char c) := by
  rcases named with rfl | rfl | rfl | rfl | ⟨rfl, shift⟩
  · cases ctrl : hasBit (modifiers - 1) 4 <;> simp [ofCodePoint?, ctrl]
  · simp [ofCodePoint?]
  · cases shift : hasBit (modifiers - 1) 1 <;> simp [ofCodePoint?, shift]
  · simp [ofCodePoint?]
  · cases ctrl : hasBit (modifiers - 1) 4 <;> simp [ofCodePoint?, shift, ctrl]

/-- With the control key a code point is at most a key of that kind. -/
theorem ofCodePoint?_of_ctrl (ctrl : hasBit (modifiers - 1) 4 = true) (other : ¬NamesKey code modifiers) :
    ofCodePoint? code modifiers ≠ some (.char c) := by
  simp only [NamesKey, not_or] at other
  by_cases blank : code = 32
  · simp [ofCodePoint?, ctrl, blank]
  · simp only [ofCodePoint?, ctrl, other, blank, if_false, if_true, decide_false, Bool.false_and, Bool.false_eq_true]
    cases charOf? code with
    | none => nofun
    | some d =>
        dsimp only
        split <;> nofun

theorem ofCodePoint?_of_not_namesKey (ctrl : hasBit (modifiers - 1) 4 = false) (other : ¬NamesKey code modifiers) :
    ofCodePoint? code modifiers = (charOf? code).map .char := by
  have shifted : ¬(decide (code = 32) && hasBit (modifiers - 1) 1) = true := fun both =>
    other (.inr (.inr (.inr (.inr (by simpa using both)))))
  simp only [NamesKey, not_or] at other
  simp only [ofCodePoint?, ctrl, other, shifted, if_false, Bool.and_false, Bool.false_eq_true]
  cases charOf? code <;> rfl

theorem ofCodePoint?_eq_char_iff :
    ofCodePoint? code modifiers = some (.char c) ↔
      ¬NamesKey code modifiers ∧ hasBit (modifiers - 1) 4 = false ∧ c.toNat = code := by
  by_cases named : NamesKey code modifiers
  · exact iff_of_false (ofCodePoint?_of_namesKey named) fun others => others.1 named
  · cases ctrl : hasBit (modifiers - 1) 4 with
    | true => exact iff_of_false (ofCodePoint?_of_ctrl ctrl named) nofun
    | false =>
        rw [ofCodePoint?_of_not_namesKey ctrl named, ← charOf?_eq_some_iff]
        simp [named]

/-! ## Characters -/

theorem ofTilde?_ne_char : ofTilde? n ≠ some (.char c) := by
  unfold ofTilde?
  repeat' split
  all_goals nofun

theorem ofFinal?_eq_char_iff {ch : Char} {first second : Option Nat} :
    ofFinal? ch first second = some (.char c) ↔
      ch = 'u' ∧ ∃ code, first = some code ∧ ofCodePoint? code (second.getD 1) = some (.char c) := by
  unfold ofFinal?
  split
  case h_8 => simp [Option.bind_eq_some_iff, ofTilde?_ne_char]
  case h_9 => simp [Option.bind_eq_some_iff]
  case h_10 => simp_all
  all_goals simp

theorem ofSequence?_of_ne (other : ∀ report, body ≠ 60 :: report) :
    ofSequence? body = body.getLast?.bind fun final =>
      ((ofBytes? body.dropLast).map fields).bind fun parts =>
        ofFinal? (Char.ofNat final.toNat) (parts.head?.bind number?) (parts.tail.head?.bind number?) := by
  have headD (parts : List (List Char)) : (parts.map number?).headD none = parts.head?.bind number? := by
    cases parts <;> rfl
  unfold ofSequence?
  split
  · exact absurd rfl (other _)
  · simp only [bind, Option.bind_map, Function.comp_def, headD, ← List.map_tail]

/-- What starts with a number does not start like a mouse report. -/
theorem sequence_ne_report {first : List Char} {others : List (List Char)} (denotes : Denotes first n)
    (final : UInt8) (report : List UInt8) : sequence (first :: others) final ≠ 60 :: report := by
  obtain ⟨c, rest, rfl⟩ := List.exists_cons_of_ne_nil denotes.ne_nil
  intro same
  obtain ⟨more, written⟩ : ∃ more, sequence ((c :: rest) :: others) final = String.utf8EncodeChar c ++ more := by
    cases others <;> simp [sequence, toBytes, List.intercalate_cons_cons]
  obtain ⟨lead, tail, encoded, read⟩ := front_utf8EncodeChar c []
  rw [written, encoded] at same
  obtain ⟨rfl, -⟩ := List.cons.inj same
  rw [front_of_lt (by decide)] at read
  obtain ⟨rfl, -⟩ := Front.char.inj read
  exact (denotes.mem List.mem_cons_self).elim (by decide) (by decide)

theorem ofNat_toNat_eq_iff {b : UInt8} : Char.ofNat b.toNat = c ↔ b.toNat = c.toNat := by
  have valid : b.toNat.isValidChar := .inl (Nat.lt_trans b.toNat_lt (by decide))
  constructor
  · rintro rfl
    exact (toNat_ofNat valid).symm
  · intro same
    rw [same, Char.ofNat_toNat]

/-- A sequence stands for a character only if it names its code point. -/
theorem ofSequence?_eq_char_iff :
    ofSequence? body = some (.char c) ↔
      ∃ first others code, body = sequence (first :: others) 117 ∧ (∀ part ∈ first :: others, ';' ∉ part) ∧
        (Denotes first code ∧ code ≤ 4294967295) ∧
        ofCodePoint? code ((others.head?.bind number?).getD 1) = some (.char c) := by
  constructor
  · intro read
    have other : ∀ report, body ≠ 60 :: report := by
      rintro report rfl
      rw [ofSequence?, Option.map_eq_some_iff] at read
      obtain ⟨_, _, same⟩ := read
      cases same
    rw [ofSequence?_of_ne other] at read
    simp only [Option.bind_eq_some_iff, ofFinal?_eq_char_iff, ofNat_toNat_eq_iff] at read
    obtain ⟨final, last, parts, split, finish, code, number, named⟩ := read
    obtain rfl : final = 117 := UInt8.toNat_inj.mp finish
    obtain ⟨whole, held, plain⟩ := eq_sequence_iff.mp ⟨last, split⟩
    obtain ⟨first, others, rfl⟩ := List.exists_cons_of_ne_nil held
    obtain ⟨_, same, number⟩ := number
    cases same
    exact ⟨first, others, code, whole, plain, toOption_readNat_eq_some_iff.mp number, named⟩
  · rintro ⟨first, others, code, rfl, plain, number, named⟩
    obtain ⟨last, split⟩ := eq_sequence_iff.mpr ⟨rfl, List.cons_ne_nil first others, plain⟩
    rw [ofSequence?_of_ne (sequence_ne_report number.1 117), last, Option.bind_some, split, Option.bind_some,
      ofFinal?_eq_char_iff]
    refine ⟨rfl, code, Option.bind_eq_some_iff.mpr ⟨first, rfl, toOption_readNat_eq_some_iff.mpr number⟩, named⟩

theorem isControl_iff : isControl c = true ↔ c.toNat < 32 ∨ 127 ≤ c.toNat ∧ c.toNat ≤ 159 := by
  simp [isControl]

theorem isControl_eq_false_iff : isControl c = false ↔ 32 ≤ c.toNat ∧ (c.toNat < 127 ∨ 159 < c.toNat) := by
  rw [Bool.eq_false_iff, Ne, isControl_iff]
  omega

theorem ofText?_eq_char_iff : ofText? bytes = some (.char c) ↔ isControl c = false ∧ ∃ rest, bytes = toBytes (c :: rest) := by
  simp only [ofText?, ← ofBytes?_eq_some_iff]
  constructor
  · intro key
    split at key
    case h_2 => cases key
    case h_1 d rest read =>
      cases control : isControl d with
      | true => simp [control] at key
      | false =>
          obtain rfl : d = c := by simpa [control] using key
          exact ⟨control, rest, read⟩
  · rintro ⟨printable, rest, read⟩
    simp [read, printable]

/-- A byte that stands for a character is that character. -/
theorem ofByte?_eq_char_iff {b : UInt8} :
    ofByte? b = some (.char c) ↔ (32 ≤ b.toNat ∧ b.toNat ≤ 126) ∧ Char.ofNat b.toNat = c := by
  simp only [ofByte?, UInt8.le_iff_toNat_le, ← UInt8.toNat_inj, UInt8.reduceToNat]
  repeat' split
  all_goals
    simp
    omega

theorem ofBytes_sequence (body : List UInt8) :
    ofBytes (27 :: 91 :: body) = (ofSequence? body).getD (.unknown (27 :: 91 :: body)) := by
  match body with
  | [] | [_] | _ :: _ :: _ => rfl

/-- Control characters come out of sequences only. -/
theorem ofBytes_eq_control_iff (control : isControl c = true) :
    ofBytes bytes = .char c ↔ ∃ body, bytes = 27 :: 91 :: body ∧ ofSequence? body = some (.char c) := by
  have notText : ofText? bytes ≠ some (.char c) := fun key =>
    Bool.false_ne_true ((ofText?_eq_char_iff.mp key).1.symm.trans control)
  constructor
  · intro key
    have key := (Option.getD_eq_iff.mp key).resolve_right nofun
    split at key
    · obtain ⟨⟨low, high⟩, same⟩ := ofByte?_eq_char_iff.mp key
      have same := ofNat_toNat_eq_iff.mp same
      have printable : isControl c = false := isControl_eq_false_iff.mpr (by omega)
      exact absurd (printable.symm.trans control) Bool.false_ne_true
    · split at key
      · cases key
      · exact absurd key notText
    · exact ⟨_, rfl, key⟩
    · exact absurd key notText
  · rintro ⟨body, rfl, read⟩
    rw [ofBytes_sequence, read, Option.getD_some]

theorem ofBytes_of_text (plain : bytes.head? ≠ some 27) (several : bytes.length ≠ 1) :
    ofBytes bytes = (ofText? bytes).getD (.unknown bytes) := by
  unfold ofBytes
  split
  · exact absurd rfl several
  · exact absurd rfl plain
  · exact absurd rfl plain
  · rfl

/-- The bytes of a character are read as the character. -/
theorem ofBytes_toBytes (printable : isControl c = false) : ofBytes (toBytes [c]) = .char c := by
  have range := isControl_eq_false_iff.mp printable
  by_cases ascii : c.toNat < 128
  · have code : c.toNat.toUInt8.toNat = c.toNat := Nat.mod_eq_of_lt (by omega)
    have key : ofByte? c.toNat.toUInt8 = some (.char c) :=
      ofByte?_eq_char_iff.mpr ⟨by omega, by rw [code, Char.ofNat_toNat]⟩
    rw [toBytes_eq_asciiBytes (by simpa using ascii)]
    change (ofByte? c.toNat.toUInt8).getD _ = _
    rw [key, Option.getD_some]
  · have text : ofText? (toBytes [c]) = some (.char c) := ofText?_eq_char_iff.mpr ⟨printable, [], rfl⟩
    rw [ofBytes_of_text, text, Option.getD_some]
    · obtain ⟨lead, tail, encoded, read⟩ := front_utf8EncodeChar c []
      rw [toBytes, List.flatMap_singleton, encoded]
      rintro same
      obtain rfl := Option.some.inj same
      rw [front_of_lt (by decide)] at read
      obtain ⟨rfl, -⟩ := Front.char.inj read
      exact ascii (by decide)
    · rw [toBytes, List.flatMap_singleton, String.length_utf8EncodeChar, Ne, Char.utf8Size_eq_one_iff,
        UInt32.le_iff_toNat_le]
      exact fun small => ascii (Nat.lt_succ_of_le small)

/-- A code point that is no key's own is read as its character. -/
theorem ofBytes_codePoint {spelled : List Char} (printable : isControl c = false) (denotes : Denotes spelled c.toNat) :
    ofBytes (27 :: 91 :: sequence [spelled] 117) = .char c := by
  have range := isControl_eq_false_iff.mp printable
  have valid := c.valid
  rw [ofBytes_sequence, (ofSequence?_eq_char_iff (c := c)).mpr, Option.getD_some]
  refine ⟨spelled, [], c.toNat, rfl, ?_, ⟨denotes, ?_⟩, ?_⟩
  · simpa using not_mem_of_denotes denotes
  · exact Nat.le_of_lt_succ c.val.toNat_lt
  · rw [ofCodePoint?_eq_char_iff]
    refine ⟨?_, rfl, rfl⟩
    rintro (_ | _ | _ | _ | ⟨_, shift⟩)
    any_goals omega
    cases shift

/-! ## What terminals send -/

variable {held : Modifiers}

/-- A report is found behind its three numbers. -/
theorem ofBytes_mouse {first second third : List Char} (codes : Denotes first (report.code held))
    (cols : Denotes second report.col) (rows : Denotes third report.row) (wide : report.col ≤ 65535)
    (high : report.row ≤ 65535) :
    ofBytes (27 :: 91 :: 60 :: sequence [first, second, third] (finalOf report.pressed)) = .mouse report := by
  have spells : Spells report [first, second, third] :=
    ⟨first, second, third, _, rfl, ⟨codes, Nat.le_trans (MouseReport.bits_of_code report held).1 (by decide)⟩, ⟨cols, wide⟩,
      ⟨rows, high⟩, MouseReport.buttonOf_code report held, MouseReport.hasBit_code report held⟩
  rw [ofBytes_report, mouse?_eq_some_iff.mpr ⟨_, spells, rfl⟩]
  rfl

/-- Both encodings of a character that can be printed are decoded as the character, a mouse report as what it reports,
    and what starts like a report and is none is left as it is. -/
theorem decodes_encodings (c : Char) (report : MouseReport) (held : Modifiers) (body : List UInt8)
    (printable : isControl c = false) (wide : report.col ≤ 65535) (high : report.row ≤ 65535) :
    ofBytes (toBytes [c]) = .char c ∧
      (∀ spelled, Denotes spelled c.toNat → ofBytes (27 :: 91 :: sequence [spelled] 117) = .char c) ∧
      (∀ first second third,
        Denotes first (report.code held) → Denotes second report.col → Denotes third report.row →
          ofBytes (27 :: 91 :: 60 :: sequence [first, second, third] (finalOf report.pressed)) = .mouse report) ∧
      (ofBytes (27 :: 91 :: 60 :: body) = .unknown (27 :: 91 :: 60 :: body) ↔ ¬IsReport body) := by
  refine ⟨ofBytes_toBytes printable, fun _ => ofBytes_codePoint printable,
    fun _ _ _ codes cols rows => ofBytes_mouse codes cols rows wide high, ?_⟩
  rw [ofBytes_report, isReport_iff]
  cases mouse? body <;> simp

/-- An `é` in both encodings, a press with the control key down, and a report that lacks a field. -/
theorem decodes_encodings_acute :
    ofBytes (toBytes ['é']) = .char 'é' ∧
      ofBytes (27 :: 91 :: sequence [Nat.toDigits 10 233] 117) = .char 'é' ∧
      ofBytes (27 :: 91 :: 60 :: sequence [Nat.toDigits 10 16, Nat.toDigits 10 12, Nat.toDigits 10 5] 77) =
        .mouse ⟨.left, 5, 12, true, false⟩ ∧
      (ofBytes (27 :: 91 :: 60 :: [48, 59, 53, 77]) = .unknown (27 :: 91 :: 60 :: [48, 59, 53, 77]) ↔
        ¬IsReport [48, 59, 53, 77]) := by
  obtain ⟨text, point, mouse, broken⟩ := decodes_encodings 'é' ⟨.left, 5, 12, true, false⟩ ⟨false, false, true⟩
    [48, 59, 53, 77] (by decide) (by decide) (by decide)
  exact ⟨text, point _ (denotes_toDigits 233), mouse _ _ _ (denotes_toDigits 16) (denotes_toDigits 12)
    (denotes_toDigits 5), broken⟩

end Key

end PocketBasic
