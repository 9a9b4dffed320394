import PocketBasic.Proofs.Number.Digits
import PocketBasic.Proofs.Program.Strings

/-! # Storing what was opened

The text that a value is opened with is written by one piece of code and read by another. An integer is read as
what it was, and so is a string: a script has only ASCII characters in its strings, and these are the ones that the
device has bytes for. The rules of input fields allow for 255 bytes, though, and a literal of the script may have
more; such a string can be opened, but it is refused as soon as it is stored. A value that is not refused is written
over itself, so nothing changes either way.
-/

namespace PocketBasic

/-! ## Integers -/

namespace Number

variable {limit : Nat}

theorem toList_toString_natCast (n : Nat) : (toString (n : Int)).toList = Nat.toDigits 10 n := by
  simp [toString, Int.repr]

theorem toList_toString_negSucc (n : Nat) :
    (toString (Int.negSucc n)).toList = '-' :: Nat.toDigits 10 (n + 1) := by
  simp [toString, Int.repr]

/-- An integer is read as what was written. -/
theorem readInt_toString {n : Int} (low : -(limit : Int) - 1 ≤ n) (high : n ≤ limit) :
    readInt limit (toString n).toList = .ok n := by
  cases n with
  | ofNat n =>
      have read : readMagnitude limit .tooLarge (Nat.toDigits 10 n) = .ok n :=
        readMagnitude_toDigits (Int.ofNat_le.mp high)
      have digit : ∀ c ∈ Nat.toDigits 10 n, c.isDigit = true := fun c => isDigit_of_mem_toDigits
      rw [Int.ofNat_eq_natCast, toList_toString_natCast]
      unfold readInt
      split
      case h_1 nothing => exact absurd nothing Nat.toDigits_ne_nil
      case h_2 sign | h_3 sign =>
        rw [sign] at digit
        exact absurd (digit _ List.mem_cons_self) (by decide)
      case h_4 =>
        rw [read]
        rfl
  | negSucc n =>
      have inside : n + 1 ≤ limit + 1 := by omega
      rw [toList_toString_negSucc, readInt, readMagnitude_toDigits inside]
      rfl

end Number

/-! ## Texts of values -/

theorem Text.trim_eq_self {s : List Char} (solid : ∀ c ∈ s, isBlank c = false) : trim s = s := by
  have start {s : List Char} (solid : ∀ c ∈ s, isBlank c = false) : s.dropWhile isBlank = s := by
    cases s with
    | nil => rfl
    | cons c rest => exact List.dropWhile_cons_of_neg (by simp [solid c List.mem_cons_self])
  rw [trim, trimEnd, trimStart, start solid, start fun c member => solid c (List.mem_reverse.mp member),
    List.reverse_reverse]

namespace Conversion

theorem isBlank_of_isDigit {c : Char} (digit : c.isDigit = true) : Text.isBlank c = false := by
  have range : 48 ≤ c.toNat ∧ c.toNat ≤ 57 := by
    simpa [Char.isDigit, UInt32.le_iff_toNat_le] using digit
  simp [Text.isBlank, Text.blankRanges]
  omega

theorem solid_toString {n : Int} : ∀ c ∈ (toString n).toList, Text.isBlank c = false := by
  intro c member
  cases n with
  | ofNat n =>
      rw [Int.ofNat_eq_natCast, Number.toList_toString_natCast] at member
      exact isBlank_of_isDigit (Number.isDigit_of_mem_toDigits member)
  | negSucc n =>
      rw [Number.toList_toString_negSucc] at member
      rcases List.mem_cons.mp member with rfl | digit
      · decide
      · exact isBlank_of_isDigit (Number.isDigit_of_mem_toDigits digit)

theorem integer_toString (n : Int16) : integer (toString n.toInt).toList = .ok n := by
  have low := n.le_toInt
  have high := n.toInt_lt
  have inside : -32768 ≤ n.toInt ∧ n.toInt ≤ 32767 := by omega
  have read : Number.readInt maxRead (toString n.toInt).toList = .ok n.toInt :=
    Number.readInt_toString (by unfold maxRead; omega) (by unfold maxRead; omega)
  rw [integer, Text.trim_eq_self solid_toString, read]
  simp only [if_pos inside, Int16.ofInt_toInt]

/-- The text of a string is encoded as the string, whose length decides whether it is taken. -/
theorem string_toText (c : Computer) {s : DeviceString} (ascii : s.IsAscii) :
    string c s.toText = (if maxStringLength < s.length then .error (.stringTooLong s.length) else .ok s, c) := by
  obtain ⟨text, bytes, small⟩ := ascii
  have shown : s.toText = text := by
    rw [DeviceString.toText, bytes, Text.ofBytesLossy_asciiBytes small]
  have encoded : Engine.encode c (Text.toUnits text) = .ok s := by
    change Computer.encode (Text.toUnits text) = .ok s
    rw [Computer.encode, Text.decodeUnits_toUnits, Computer.encodeChars_eq_ok_iff.mpr ⟨bytes, small⟩]
    rfl
  simp only [string, shown, encoded]
  split
  · rfl
  · rfl

end Conversion

/-- Why an input field does not take the text of the value: it is a string, and too long. -/
def Value.refusal? : Value → Option FieldError
  | .string s => if Conversion.maxStringLength < s.length then some (.stringTooLong s.length) else none
  | .integer _ | .real _ => none

theorem Value.refusal?_eq_none_iff {value : Value} :
    value.refusal? = none ↔ ∀ s, value = .string s → s.length ≤ Conversion.maxStringLength := by
  cases value with
  | integer | real => exact iff_of_true rfl nofun
  | string s =>
      rw [refusal?, ite_eq_right_iff]
      constructor
      · rintro fits _ ⟨⟩
        exact Nat.le_of_not_lt fun long => nomatch fits long
      · exact fun fits long => absurd (fits s rfl) (Nat.not_le_of_lt long)

theorem Value.value_editText (c : Computer) {value : Value} (ascii : value.IsAscii) (solid : value.type ≠ .real) :
    Conversion.value c value.editText.toList value.type =
      (match value.refusal? with
        | some e => .error e
        | none => .ok value, c) := by
  cases value with
  | real => exact absurd rfl solid
  | integer n =>
      simp only [editText, display, type, Conversion.value, Conversion.integer_toString, refusal?, Except.map]
  | string s =>
      simp only [editText, type, Conversion.value, String.toList_ofList, Conversion.string_toText c ascii, refusal?]
      split
      · rfl
      · rfl

/-! ## Writing a value over itself -/

namespace Inspector

variable {s : Store} {target : RowTarget} {value : Value}

theorem storeIn_of_found (typed : s.Typed) (found : targetValue? s target = some value) :
    storeIn s value target = .ok s := by
  cases target with
  | array name dims => cases found
  | scalar name =>
      have bound : s.scalars.find? name = some value := found
      simp [storeIn, Store.modify, bound, NameTable.insert_of_found bound, Except.mapError]
  | element name subs =>
      have fits := typed.element? found
      obtain ⟨a, bound, inside⟩ := Option.bind_eq_some_iff.mp found
      simp [storeIn, Store.setElement, bound, fits, ArrayVar.set?_of_found inside, NameTable.insert_of_found bound,
        Except.mapError]

/-- What a store has in a row is of the type of the row. -/
theorem type_of_found (typed : s.Typed) (found : targetValue? s target = some value) :
    value.type = .ofName target.name := by
  cases target with
  | array name dims => cases found
  | scalar name => exact typed.get? found
  | element name subs => exact typed.element? found

theorem isAscii_of_found (ascii : s.IsAscii) (found : targetValue? s target = some value) : value.IsAscii := by
  cases target with
  | array name dims => cases found
  | scalar name => exact ascii.get? found
  | element name subs => exact ascii.element? found

/-- A value that is opened in the inspector of a script comes back from its text and takes its own place. Storing
    the text unchanged fails only if the value is a string that is too long for an input field, and nothing of the
    script changes either way. -/
theorem commit_editText_iff {source : String} {c : Computer} {session : Option Session}
    (inspected : Inspected source c session) {i : Inspector} {row : InspectorRow}
    (fresh : i.Fresh true (Engine.store c)) (selected : i.selectedRow? = some row)
    (single : ∀ name dims, row.target ≠ .array name dims) (solid : ValueType.ofName row.target.name ≠ .real) :
    ∃ value text, targetValue? (Engine.store c) row.target = some value ∧
      i.editText (Engine.store c) = some text ∧
      let done := i.commit c text.toList
      (done.1 = none ↔ ∀ s, value = .string s → s.length ≤ Conversion.maxStringLength) ∧
        done.1 = value.refusal?.map .value ∧ done.2.2 = c := by
  have leads : Store.empty.LeadsTo (Engine.store c) := inspected.isAscii.run.store
  have typed := leads.typed Store.typed_empty
  have listed : row ∈ InspectorRow.ofStore (Engine.store c) i.expanded := by
    have rows := fresh.rows
    rw [if_pos rfl] at rows
    exact rows ▸ List.mem_of_getElem? selected
  rcases shown_of_mem_ofStore (leads.sized Store.sized_empty) listed with ⟨name, dims, array⟩ | ⟨value, found, _⟩
  · exact absurd array (single name dims)
  have type := type_of_found typed found
  have read := value.value_editText c (isAscii_of_found (leads.isAscii .empty) found) (type ▸ solid)
  have done : (i.commit c value.editText.toList).1 = value.refusal?.map .value ∧
      (i.commit c value.editText.toList).2.2 = c := by
    rw [commit, if_pos fresh.switch, selected]
    dsimp only
    rw [← type, read]
    cases value.refusal? with
    | some e => exact ⟨rfl, rfl⟩
    | none =>
        simp only [storeIn_of_found typed found]
        exact ⟨rfl, rfl⟩
  refine ⟨value, value.editText, found, ?_, ?_, done⟩
  · simp [editText, fresh.switch, selected, found]
  · rw [done.1, Option.map_eq_none_iff]
    exact Value.refusal?_eq_none_iff

/-- An element of an expanded array is opened and stored. -/
theorem commit_editText_iff_element :
    let source := "dim S$(2)\nlet S$(1) \"HELLO\""
    let loaded := (Computer.load source).toOption.getD (.ofProgram [])
    let c := (loaded.exec .nothing 10).2
    let store := Engine.store c
    let i := ((Inspector.empty.refresh store).toggle store).2.select 2
    i.selectedRow? = some ⟨.element "S$" [1], "  S$(1)", "\"HELLO\""⟩ ∧ i.editText store = some "HELLO" ∧
      (i.commit c "HELLO".toList).1 = none ∧ (i.commit c "HELLO".toList).2.2 = c := by
  intro source loaded c store i
  have accepted : Computer.load source = .ok loaded := eq_ok_getD (by decide +kernel) _
  have inspected : Inspected source c _ := (Inspected.loaded accepted).batch .nothing 10 nofun
  have fresh : i.Fresh true store := (fresh_refresh (i := .empty) rfl store).toggle.select 2
  have selected : i.selectedRow? = some ⟨.element "S$" [1], "  S$(1)", "\"HELLO\""⟩ := by decide +kernel
  have opened : i.editText store = some "HELLO" := by decide +kernel
  have held : targetValue? store (.element "S$" [1]) = some (.string ⟨[72, 69, 76, 76, 79]⟩) := by decide +kernel
  obtain ⟨value, text, found, edited, taken, _, kept⟩ :=
    commit_editText_iff inspected fresh selected nofun (by decide)
  cases opened.symm.trans edited
  cases held.symm.trans found
  refine ⟨selected, opened, taken.mpr ?_, kept⟩
  rintro _ ⟨⟩
  decide

/-- A literal of 256 characters is opened and refused. -/
theorem long_literal_refused :
    let characters := List.replicate 256 'A'
    let line := "let N$ \"".toList ++ characters ++ ['"']
    let c := ((Computer.ofProgram ((Source.read line).toOption.getD [])).exec .nothing 2).2
    let store := Engine.store c
    let i := Inspector.empty.refresh store
    Inspected (String.ofList line) c none ∧ i.Fresh true store ∧
      i.selectedRow?.map (·.target) = some (.scalar "N$") ∧ i.editText store = some (String.ofList characters) ∧
      (i.commit c (String.ofList characters).toList).1 = some (.value (.stringTooLong 256)) := by
  intro characters line c store i
  have accepted : Computer.load (String.ofList line) = .ok (.ofProgram ((Source.read line).toOption.getD [])) := by
    have read : Source.read line = .ok ((Source.read line).toOption.getD []) := eq_ok_getD (by decide +kernel) _
    rw [Computer.load, String.toList_ofList]
    exact congrArg (Except.map Computer.ofProgram) read
  have ended : (Computer.exec (.ofProgram ((Source.read line).toOption.getD [])) .nothing 2).1.session? = none := by
    decide +kernel
  have inspected := (Inspected.loaded accepted).batch .nothing 2 nofun
  rw [ended] at inspected
  rw [String.toList_ofList]
  exact ⟨inspected, fresh_refresh (i := .empty) rfl store, by decide +kernel, by decide +kernel, by decide +kernel⟩

end Inspector

end PocketBasic
