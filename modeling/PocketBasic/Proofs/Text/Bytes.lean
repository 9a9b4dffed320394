import PocketBasic.Text.Bytes

/-! # Texts and their bytes

A text is read back from its bytes, and no other bytes are read as that text. So the strict reading is the inverse of
writing: sequences that are too long, surrogates and code points past the last one are not let in. Places in a text
are counted in characters or in bytes.
-/

namespace PocketBasic.Text

variable {c : Char} {lead lo hi b : UInt8} {rest bytes : List UInt8} {s : List Char} {acc n size : Nat}

theorem followers_eq (lead : UInt8) : followers lead =
    if lead.toNat < 0xC2 then none
    else if lead.toNat < 0xE0 then some (1, 0x80, 0xBF)
    else if lead.toNat = 0xE0 then some (2, 0xA0, 0xBF)
    else if lead.toNat = 0xED then some (2, 0x80, 0x9F)
    else if lead.toNat < 0xF0 then some (2, 0x80, 0xBF)
    else if lead.toNat = 0xF0 then some (3, 0x90, 0xBF)
    else if lead.toNat < 0xF4 then some (3, 0x80, 0xBF)
    else if lead.toNat = 0xF4 then some (3, 0x80, 0x8F)
    else none := by
  simp only [followers, UInt8.lt_iff_toNat_lt, ← UInt8.toNat_inj, UInt8.reduceToNat]

theorem continuation_cons (within : lo.toNat ≤ b.toNat ∧ b.toNat ≤ hi.toNat) :
    continuation acc (n + 1) lo hi (b :: rest) =
      ((continuation (acc * 64 + (b.toNat - 0x80)) n 0x80 0xBF rest).1 + 1,
        (continuation (acc * 64 + (b.toNat - 0x80)) n 0x80 0xBF rest).2) := by
  simp [continuation, UInt8.le_iff_toNat_le, within.1, within.2]

/-- A sequence that goes on to its end starts with a byte in the range and goes on from there. -/
theorem exists_of_continuation (whole : (continuation acc (n + 1) lo hi rest).1 = n + 1) :
    ∃ b more, rest = b :: more ∧ (lo.toNat ≤ b.toNat ∧ b.toNat ≤ hi.toNat) ∧
      (continuation (acc * 64 + (b.toNat - 0x80)) n 0x80 0xBF more).1 = n := by
  cases rest with
  | nil => simp [continuation] at whole
  | cons b more =>
      by_cases within : lo.toNat ≤ b.toNat ∧ b.toNat ≤ hi.toNat
      · rw [continuation_cons within] at whole
        exact ⟨b, more, rfl, within, Nat.succ.inj whole⟩
      · simp [continuation, UInt8.le_iff_toNat_le, within] at whole

/-! ## Reading what was written -/

theorem front_of_lt (small : lead.toNat < 0x80) : front lead rest = .char (Char.ofNat lead.toNat) 1 := by
  rw [front, if_pos (UInt8.lt_iff_toNat_lt.mpr small)]

theorem front_eq_char_iff (shape : followers lead = some (n, lo, hi)) :
    front lead rest = .char c size ↔
      let read := continuation (lead.toNat % if n = 1 then 32 else if n = 2 then 16 else 8) n lo hi rest
      read.1 = n ∧ Char.ofNat read.2 = c ∧ n + 1 = size := by
  have high : ¬lead < 0x80 := by
    intro low
    rw [UInt8.lt_iff_toNat_lt] at low
    rw [followers_eq, if_pos (Nat.lt_trans low (by decide))] at shape
    cases shape
  rw [front, if_neg high, shape]
  dsimp only
  generalize continuation _ n lo hi rest = read
  by_cases whole : read.1 = n <;> simp [whole]

theorem toNat_ofNat (valid : n.isValidChar) : (Char.ofNat n).toNat = n := by
  rw [Char.ofNat, dif_pos valid]
  rfl

theorem utf8EncodeChar_ofNat (valid : n.isValidChar) : String.utf8EncodeChar (Char.ofNat n) =
    if n ≤ 0x7F then [UInt8.ofNat n]
    else if n ≤ 0x7FF then [UInt8.ofNat (n / 64 % 32 + 192), UInt8.ofNat (n % 64 + 128)]
    else if n ≤ 0xFFFF then
      [UInt8.ofNat (n / 4096 % 16 + 224), UInt8.ofNat (n / 64 % 64 + 128), UInt8.ofNat (n % 64 + 128)]
    else
      [UInt8.ofNat (n / 262144 % 8 + 240), UInt8.ofNat (n / 4096 % 64 + 128), UInt8.ofNat (n / 64 % 64 + 128),
        UInt8.ofNat (n % 64 + 128)] := by
  have same : (Char.ofNat n).val.toNat = n := toNat_ofNat valid
  simp only [String.utf8EncodeChar, same]

theorem toNat_ofNat_byte (small : n < 256) : (UInt8.ofNat n).toNat = n := by
  simpa using small

/-- A byte that carries six bits hands them on. -/
theorem continuation_six (v : Nat) (within : lo.toNat ≤ v % 64 + 128 ∧ v % 64 + 128 ≤ hi.toNat) :
    continuation acc (n + 1) lo hi (UInt8.ofNat (v % 64 + 128) :: rest) =
      ((continuation (acc * 64 + v % 64) n 0x80 0xBF rest).1 + 1,
        (continuation (acc * 64 + v % 64) n 0x80 0xBF rest).2) := by
  have byte : (UInt8.ofNat (v % 64 + 128)).toNat = v % 64 + 128 := toNat_ofNat_byte (by omega)
  rw [continuation_cons (byte.symm ▸ within), byte, Nat.add_sub_cancel]

theorem six_within (v : Nat) : (0x80 : UInt8).toNat ≤ v % 64 + 128 ∧ v % 64 + 128 ≤ (0xBF : UInt8).toNat := by
  simp only [UInt8.reduceToNat]
  omega

theorem front_two (low : 0x7F < n) (high : n ≤ 0x7FF) :
    front (UInt8.ofNat (n / 64 % 32 + 192)) (UInt8.ofNat (n % 64 + 128) :: rest) = .char (Char.ofNat n) 2 := by
  have head := toNat_ofNat_byte (show n / 64 % 32 + 192 < 256 by omega)
  have shape : followers (UInt8.ofNat (n / 64 % 32 + 192)) = some (1, 0x80, 0xBF) := by
    rw [followers_eq, head, if_neg (by omega), if_pos (by omega)]
  have whole : (n / 64 % 32 + 192) % 32 * 64 + n % 64 = n := by omega
  rw [front_eq_char_iff shape, continuation_six n (six_within n), head]
  exact ⟨rfl, congrArg Char.ofNat whole, rfl⟩

/-- The range of the second byte shuts out sequences that are too long, and surrogates. -/
theorem front_three (low : 0x7FF < n) (high : n ≤ 0xFFFF) (valid : n.isValidChar) :
    front (UInt8.ofNat (n / 4096 % 16 + 224))
      (UInt8.ofNat (n / 64 % 64 + 128) :: UInt8.ofNat (n % 64 + 128) :: rest) = .char (Char.ofNat n) 3 := by
  rw [Nat.isValidChar] at valid
  have head := toNat_ofNat_byte (show n / 4096 % 16 + 224 < 256 by omega)
  obtain ⟨lo, hi, shape, within⟩ : ∃ lo hi, followers (UInt8.ofNat (n / 4096 % 16 + 224)) = some (2, lo, hi) ∧
      lo.toNat ≤ n / 64 % 64 + 128 ∧ n / 64 % 64 + 128 ≤ hi.toNat := by
    rw [followers_eq, head, if_neg (by omega), if_neg (by omega)]
    split
    · exact ⟨_, _, rfl, by simp; omega⟩
    · split
      · exact ⟨_, _, rfl, by simp; omega⟩
      · rw [if_pos (by omega)]
        exact ⟨_, _, rfl, six_within _⟩
  have whole : ((n / 4096 % 16 + 224) % 16 * 64 + n / 64 % 64) * 64 + n % 64 = n := by omega
  rw [front_eq_char_iff shape, continuation_six _ within, continuation_six n (six_within n), head]
  exact ⟨rfl, congrArg Char.ofNat whole, rfl⟩

/-- The range of the second byte shuts out sequences that are too long, and code points past the last one. -/
theorem front_four (low : 0xFFFF < n) (valid : n.isValidChar) :
    front (UInt8.ofNat (n / 262144 % 8 + 240))
      (UInt8.ofNat (n / 4096 % 64 + 128) :: UInt8.ofNat (n / 64 % 64 + 128) :: UInt8.ofNat (n % 64 + 128) :: rest) =
        .char (Char.ofNat n) 4 := by
  rw [Nat.isValidChar] at valid
  have head := toNat_ofNat_byte (show n / 262144 % 8 + 240 < 256 by omega)
  obtain ⟨lo, hi, shape, within⟩ : ∃ lo hi, followers (UInt8.ofNat (n / 262144 % 8 + 240)) = some (3, lo, hi) ∧
      lo.toNat ≤ n / 4096 % 64 + 128 ∧ n / 4096 % 64 + 128 ≤ hi.toNat := by
    rw [followers_eq, head, if_neg (by omega), if_neg (by omega), if_neg (by omega), if_neg (by omega),
      if_neg (by omega)]
    split
    · exact ⟨_, _, rfl, by simp; omega⟩
    · split
      · exact ⟨_, _, rfl, six_within _⟩
      · rw [if_pos (by omega)]
        exact ⟨_, _, rfl, by simp; omega⟩
  have whole : (((n / 262144 % 8 + 240) % 8 * 64 + n / 4096 % 64) * 64 + n / 64 % 64) * 64 + n % 64 = n := by omega
  rw [front_eq_char_iff shape, continuation_six _ within, continuation_six _ (six_within _),
    continuation_six n (six_within n), head]
  exact ⟨rfl, congrArg Char.ofNat whole, rfl⟩

/-- The whole sequence of a character is read from the front. -/
theorem front_utf8EncodeChar (c : Char) (rest : List UInt8) :
    ∃ lead tail, String.utf8EncodeChar c = lead :: tail ∧ front lead (tail ++ rest) = .char c (tail.length + 1) := by
  obtain ⟨n, valid, rfl⟩ : ∃ n, n.isValidChar ∧ Char.ofNat n = c := ⟨c.toNat, c.valid, Char.ofNat_toNat c⟩
  rw [utf8EncodeChar_ofNat valid]
  by_cases one : n ≤ 0x7F
  · have head := toNat_ofNat_byte (show n < 256 by omega)
    rw [if_pos one]
    refine ⟨_, _, rfl, ?_⟩
    rw [front_of_lt (by omega), head]
    rfl
  · by_cases two : n ≤ 0x7FF
    · rw [if_neg one, if_pos two]
      exact ⟨_, _, rfl, front_two (Nat.lt_of_not_le one) two⟩
    · by_cases three : n ≤ 0xFFFF
      · rw [if_neg one, if_neg two, if_pos three]
        exact ⟨_, _, rfl, front_three (Nat.lt_of_not_le two) three valid⟩
      · rw [if_neg one, if_neg two, if_neg three]
        exact ⟨_, _, rfl, front_four (Nat.lt_of_not_le three) valid⟩

theorem decodeBytes_append (c : Char) (bytes : List UInt8) :
    decodeBytes (String.utf8EncodeChar c ++ bytes) = some c :: decodeBytes bytes := by
  obtain ⟨lead, tail, written, read⟩ := front_utf8EncodeChar c bytes
  rw [written, List.cons_append, decodeBytes, read]
  simp

theorem decodeBytes_toBytes (s : List Char) : decodeBytes (toBytes s) = s.map some := by
  induction s with
  | nil => simp [toBytes, decodeBytes]
  | cons c rest ih => rw [toBytes, List.flatMap_cons, decodeBytes_append, List.map_cons, ← toBytes, ih]

/-! ## Writing what was read -/

theorem followers_cases (shape : followers lead = some (n, lo, hi)) :
    (0x80 ≤ lo.toNat ∧ hi.toNat ≤ 0xBF) ∧
      (n = 1 ∧ 0xC2 ≤ lead.toNat ∧ lead.toNat < 0xE0 ∨
        n = 2 ∧ 0xE0 ≤ lead.toNat ∧ lead.toNat < 0xF0 ∧
          (lead.toNat = 0xE0 → 0xA0 ≤ lo.toNat) ∧ (lead.toNat = 0xED → hi.toNat ≤ 0x9F) ∨
        n = 3 ∧ 0xF0 ≤ lead.toNat ∧ lead.toNat < 0xF5 ∧
          (lead.toNat = 0xF0 → 0x90 ≤ lo.toNat) ∧ (lead.toNat = 0xF4 → hi.toNat ≤ 0x8F)) := by
  rw [followers_eq] at shape
  repeat' split at shape
  all_goals cases shape
  all_goals
    simp
    omega

/-- What is read from the front as a character is the sequence of that character. -/
theorem eq_utf8EncodeChar_of_front (read : front lead rest = .char c size) :
    lead :: rest = String.utf8EncodeChar c ++ rest.drop (size - 1) := by
  have byte {n : Nat} {b : UInt8} (same : b.toNat = n) : UInt8.ofNat n = b := by
    rw [← same, UInt8.ofNat_toNat]
  by_cases small : lead.toNat < 0x80
  · rw [front_of_lt small] at read
    cases read
    rw [utf8EncodeChar_ofNat (.inl (by omega)), if_pos (by omega), UInt8.ofNat_toNat]
    rfl
  · cases shape : followers lead with
    | none =>
        rw [front, if_neg (by rwa [UInt8.lt_iff_toNat_lt]), shape] at read
        cases read
    | some range =>
        obtain ⟨n, lo, hi⟩ := range
        obtain ⟨whole, rfl, rfl⟩ := (front_eq_char_iff shape).mp read
        obtain ⟨bounds, ⟨rfl, cases'⟩ | ⟨rfl, cases'⟩ | ⟨rfl, cases'⟩⟩ := followers_cases shape
        all_goals obtain ⟨a, more, rfl, first, whole⟩ := exists_of_continuation whole
        · rw [continuation_cons first]
          simp only [continuation, if_true]
          rw [utf8EncodeChar_ofNat (.inl (by omega)), if_neg (by omega), if_pos (by omega), byte (b := lead) (by omega),
            byte (b := a) (by omega)]
          rfl
        · obtain ⟨b, more, rfl, second, -⟩ := exists_of_continuation whole
          rw [continuation_cons first, continuation_cons second]
          simp only [UInt8.reduceToNat] at second
          simp only [continuation, Nat.reduceEqDiff, if_true, if_false]
          rw [utf8EncodeChar_ofNat (by unfold Nat.isValidChar; omega), if_neg (by omega), if_neg (by omega),
            if_pos (by omega), byte (b := lead) (by omega), byte (b := a) (by omega), byte (b := b) (by omega)]
          rfl
        · obtain ⟨b, more, rfl, second, whole⟩ := exists_of_continuation whole
          obtain ⟨d, more, rfl, third, -⟩ := exists_of_continuation whole
          rw [continuation_cons first, continuation_cons second, continuation_cons third]
          simp only [UInt8.reduceToNat] at second third
          simp only [continuation, Nat.reduceEqDiff, if_false]
          rw [utf8EncodeChar_ofNat (by unfold Nat.isValidChar; omega), if_neg (by omega), if_neg (by omega),
            if_neg (by omega), byte (b := lead) (by omega), byte (b := a) (by omega), byte (b := b) (by omega),
            byte (b := d) (by omega)]
          rfl

theorem eq_toBytes_of_decodeBytes (read : decodeBytes bytes = s.map some) : bytes = toBytes s := by
  induction bytes using decodeBytes.induct generalizing s with
  | case1 =>
      rw [decodeBytes] at read
      rw [List.map_eq_nil_iff.mp read.symm]
      rfl
  | case2 lead rest c size char ih =>
      rw [decodeBytes, char] at read
      obtain ⟨first, others, rfl, same, later⟩ := List.map_eq_cons_iff.mp read.symm
      cases same
      rw [eq_utf8EncodeChar_of_front char, ih later.symm]
      rfl
  | case3 lead rest size broken ih =>
      rw [decodeBytes, broken] at read
      obtain ⟨first, others, rfl, same, later⟩ := List.map_eq_cons_iff.mp read.symm
      cases same

theorem mapM_id_eq_some_iff {α : Type} {items : List (Option α)} {results : List α} :
    items.mapM id = some results ↔ items = results.map some := by
  induction items generalizing results with
  | nil => cases results <;> simp
  | cons item items ih =>
      cases item with
      | none => cases results <;> simp
      | some value =>
          cases results with
          | nil => simp [Option.bind_eq_some_iff]
          | cons result results =>
              simp only [List.mapM_cons, id, bind, Option.bind_some, Option.bind_eq_some_iff, pure, Option.some.injEq,
                List.cons.injEq, List.map_cons, ih]
              exact ⟨fun ⟨_, same, first, others⟩ => ⟨first, others ▸ same⟩, fun ⟨first, same⟩ => ⟨_, same, first, rfl⟩⟩

/-- The bytes of a text are read as the text, and no other bytes are. -/
theorem ofBytes?_eq_some_iff : ofBytes? bytes = some s ↔ bytes = toBytes s := by
  rw [ofBytes?, mapM_id_eq_some_iff]
  refine ⟨eq_toBytes_of_decodeBytes, ?_⟩
  rintro rfl
  exact decodeBytes_toBytes s

/-! ## Characters and bytes

Both counts are the same up to the first character that is not ASCII, and differ from there on.
-/

section Lengths

variable {t : List Char} {place : Nat}

@[simp] theorem byteLength_nil : byteLength [] = 0 := rfl

@[simp] theorem byteLength_cons (c : Char) (s : List Char) : byteLength (c :: s) = c.utf8Size + byteLength s := rfl

@[simp] theorem byteLength_append (s t : List Char) : byteLength (s ++ t) = byteLength s + byteLength t := by
  induction s with
  | nil => exact (Nat.zero_add _).symm
  | cons c rest ih => rw [List.cons_append, byteLength_cons, ih, byteLength_cons, Nat.add_assoc]

theorem byteLength_le_of_isPrefix (start : s <+: t) : byteLength s ≤ byteLength t := by
  obtain ⟨rest, rfl⟩ := start
  rw [byteLength_append]
  exact Nat.le_add_right _ _

theorem utf8ByteSize_ofList (s : List Char) : (String.ofList s).utf8ByteSize = byteLength s := by
  induction s with
  | nil => rfl
  | cons c rest ih =>
      have split : String.ofList (c :: rest) = String.singleton c ++ String.ofList rest := by
        rw [← String.toList_inj, String.toList_append, String.toList_singleton, String.toList_ofList,
          String.toList_ofList, List.singleton_append]
      rw [split, String.utf8ByteSize_append, String.utf8ByteSize_singleton, ih, byteLength_cons]

theorem utf8Size_eq_one_iff_ascii : c.utf8Size = 1 ↔ c.toNat < 128 := by
  rw [Char.utf8Size_eq_one_iff, UInt32.le_iff_toNat_le]
  exact Nat.lt_succ_iff.symm

theorem length_le_byteLength (s : List Char) : s.length ≤ byteLength s := by
  induction s with
  | nil => exact Nat.le_refl 0
  | cons c rest ih =>
      rw [List.length_cons, byteLength_cons, Nat.add_comm]
      exact Nat.add_le_add c.utf8Size_pos ih

theorem byteLength_eq_length_iff : byteLength s = s.length ↔ ∀ c ∈ s, c.toNat < 128 := by
  induction s with
  | nil => simp
  | cons c rest ih =>
      have size := c.utf8Size_pos
      have least := length_le_byteLength rest
      rw [List.forall_mem_cons, ← ih, ← utf8Size_eq_one_iff_ascii, byteLength_cons, List.length_cons]
      omega

/-- The number of bytes before a character of a text. -/
def byteOffset (s : List Char) (place : Nat) : Nat := byteLength (s.take place)

theorem byteOffset_succ (here : s[place]? = some c) : byteOffset s (place + 1) = byteOffset s place + c.utf8Size := by
  rw [byteOffset, List.take_add_one, here, byteLength_append]
  rfl

/-- A place counts as many bytes as characters if no character before it takes more than one byte. -/
theorem byteOffset_eq_iff (inside : place ≤ s.length) :
    byteOffset s place = place ↔ ∀ c ∈ s.take place, c.toNat < 128 := by
  have length : (s.take place).length = place := List.length_take_of_le inside
  rw [← byteLength_eq_length_iff, length, byteOffset]

end Lengths

end PocketBasic.Text
