import PocketBasic.Terminal.Packets

/-! # Keys that share a read

A read gives one key, whatever it holds. As long as every key arrives alone, the keys that come out are
the keys that went in. Keys that arrive together are decoded as if they were one: what comes out for
them is a single key, so all but one of them are lost.
-/

namespace PocketBasic

/-- The bytes that a terminal sends for one key. -/
inductive Key.Encoding : List UInt8 → Prop where
  /-- A character that can be printed. -/
  | char (c : Char) (printable : Key.isControl c = false) : Key.Encoding (Text.toBytes [c])
  /-- A control byte, but not the one that starts sequences. -/
  | control (b : UInt8) (control : b < 32 ∨ b = 127) (plain : b ≠ 27) : Key.Encoding [b]
  /-- Parameters and a final byte behind `ESC [`. -/
  | sequence (parameters : List UInt8) (final : UInt8)
      (inner : ∀ b ∈ parameters, 0x20 ≤ b ∧ b ≤ 0x3F) (last : 0x40 ≤ final ∧ final ≤ 0x7E)
      (short : parameters.length + 3 ≤ Terminal.readSize) :
      Key.Encoding (27 :: 91 :: parameters ++ [final])
  /-- A final byte behind `ESC O`. -/
  | shifted (final : UInt8) (last : 0x40 ≤ final ∧ final ≤ 0x7E) : Key.Encoding [27, 79, final]

namespace Key.Encoding

variable {bytes : List UInt8}

theorem ne_nil (encoding : Key.Encoding bytes) : bytes ≠ [] := by
  cases encoding with
  | char c printable => simp [Text.toBytes, ← List.length_eq_zero_iff, Nat.ne_of_gt c.utf8Size_pos]
  | control | sequence | shifted => simp

/-- No key is sent as an escape byte alone, so a read that holds whole keys never waits for more. -/
theorem ne_escape (encoding : Key.Encoding bytes) : bytes ≠ [27] := by
  cases encoding with
  | char c printable =>
      intro same
      simp only [Text.toBytes, List.flatMap_cons, List.flatMap_nil, List.append_nil] at same
      have small : c.utf8Size = 1 := by rw [← String.length_utf8EncodeChar, same]; rfl
      -- A single byte is the character's own number, and that of an escape is a control character's.
      rw [String.utf8EncodeChar_eq_singleton small, List.singleton_inj, ← UInt8.toNat_inj] at same
      rw [Char.utf8Size_eq_one_iff, UInt32.le_iff_toNat_le] at small
      have number : c.toNat = 27 := by
        simp only [UInt32.toNat_toUInt8, UInt8.reduceToNat, UInt32.reduceToNat] at same small
        change c.val.toNat = 27
        omega
      simp [Key.isControl, number] at printable
  | control b control plain => simpa using plain
  | sequence | shifted => simp

end Key.Encoding

namespace Terminal

theorem readKeyBytes_whole {packet : List UInt8} (rest : List (List UInt8))
    (short : packet.length ≤ readSize) (plain : packet ≠ [27]) :
    readKeyBytes (packet :: rest) = (packet, rest) := by
  simp [readKeyBytes, read, List.take_of_length_le short, List.drop_of_length_le short, putBack, plain]

/-- Packets that fit into a read and are no lone escape byte give a key each. -/
theorem keysOf_whole (packets : List (List UInt8)) (short : ∀ p ∈ packets, p.length ≤ readSize)
    (plain : ∀ p ∈ packets, p ≠ [27]) : keysOf packets = packets.map Key.ofBytes := by
  induction packets with
  | nil => simp [keysOf]
  | cons packet rest ih =>
      rw [List.forall_mem_cons] at short plain
      rw [keysOf, readKeyBytes_whole rest short.1 plain.1, ih short.2 plain.2, List.map_cons]

/-- Reads that hold something are as many as the keys in them only if each holds one. -/
theorem length_flatten_eq_iff {α : Type} {reads : List (List α)} (held : ∀ r ∈ reads, r ≠ []) :
    reads.length = reads.flatten.length ↔ ∀ r ∈ reads, r.length = 1 := by
  have atLeast {reads : List (List α)} (held : ∀ r ∈ reads, r ≠ []) :
      reads.length ≤ reads.flatten.length := by
    induction reads with
    | nil => simp
    | cons r rest ih =>
        rw [List.forall_mem_cons] at held
        have first := List.length_pos_iff.mpr held.1
        have others := ih held.2
        simp only [List.length_cons, List.flatten_cons, List.length_append]
        omega
  induction reads with
  | nil => simp
  | cons r rest ih =>
      rw [List.forall_mem_cons] at held
      have first := List.length_pos_iff.mpr held.1
      have others := atLeast held.2
      simp only [List.forall_mem_cons, ← ih held.2, List.length_cons, List.flatten_cons,
        List.length_append]
      omega

/-- Lists that hold one element each are taken together by taking their elements in turn. -/
theorem map_of_alone {α β : Type} (f : List α → β) {reads : List (List (List α))}
    (alone : ∀ r ∈ reads, r.length = 1) :
    reads.map (fun r => f r.flatten) = reads.flatten.map f := by
  induction reads with
  | nil => rfl
  | cons r rest ih =>
      rw [List.forall_mem_cons] at alone
      obtain ⟨bytes, rfl⟩ := List.length_eq_one_iff.mp alone.1
      simp [ih alone.2]

/-- Every read gives one key, that of its bytes taken together. So the keys that come out are those that
    were sent exactly if no two of them share a read. -/
theorem keys_eq_sent_iff {reads : List (List (List UInt8))}
    (encoded : ∀ r ∈ reads, ∀ bytes ∈ r, Key.Encoding bytes)
    (held : ∀ r ∈ reads, r ≠ []) (short : ∀ r ∈ reads, r.flatten.length ≤ readSize) :
    keys (reads.map List.flatten) = reads.map (fun r => Key.ofBytes r.flatten) ∧
      (keys (reads.map List.flatten) = reads.flatten.map Key.ofBytes ↔
        ∀ r ∈ reads, r.length = 1) := by
  have whole (r) (member : r ∈ reads) : r.flatten ≠ [] ∧ r.flatten ≠ [27] := by
    obtain ⟨bytes, more, rfl⟩ := List.exists_cons_of_ne_nil (held r member)
    have encoding := encoded _ member bytes List.mem_cons_self
    refine ⟨by simp [encoding.ne_nil], fun same => encoding.ne_escape ?_⟩
    rcases List.append_eq_singleton_iff.mp same with ⟨none, _⟩ | ⟨alone, _⟩
    · exact absurd none encoding.ne_nil
    · exact alone
  have single : keys (reads.map List.flatten) = reads.map fun r => Key.ofBytes r.flatten := by
    have kept : (reads.map List.flatten).filter (fun packet => !packet.isEmpty) =
        reads.map List.flatten :=
      List.filter_eq_self.mpr (by simpa [List.forall_mem_map] using fun r member => (whole r member).1)
    rw [keys, kept, keysOf_whole _ (by simpa using short) (by simpa using fun r m => (whole r m).2),
      List.map_map, Function.comp_def]
  refine ⟨single, ?_⟩
  rw [single]
  constructor
  case mp =>
    intro same
    have counted := congrArg List.length same
    rw [List.length_map, List.length_map] at counted
    exact (length_flatten_eq_iff held).mp counted
  case mpr => exact map_of_alone Key.ofBytes

/-- A click of the mouse whose release arrives with its press is no key that is known, and a letter typed
    after it comes out as it is. -/
theorem keys_eq_sent_iff_clicked :
    let press : List UInt8 := 27 :: 91 :: [60, 48, 59, 49, 50, 59, 53] ++ [77]
    let release : List UInt8 := 27 :: 91 :: [60, 48, 59, 49, 50, 59, 53] ++ [109]
    let reads := [[press, release], [[97]]]
    (∀ r ∈ reads, ∀ bytes ∈ r, Key.Encoding bytes) ∧
      keys (reads.map List.flatten) = [.unknown (press ++ release), .char 'a'] ∧
      reads.flatten.map Key.ofBytes =
        [.mouse ⟨.left, 5, 12, true, false⟩, .mouse ⟨.left, 5, 12, false, false⟩, .char 'a'] ∧
      keys (reads.map List.flatten) ≠ reads.flatten.map Key.ofBytes := by
  intro press release reads
  have pressed : Key.Encoding press := .sequence _ _ (by simp) (by decide) (by decide)
  have released : Key.Encoding release := .sequence _ _ (by simp) (by decide) (by decide)
  have letter : Key.Encoding [97] := .char 'a' rfl
  have encoded : ∀ r ∈ reads, ∀ bytes ∈ r, Key.Encoding bytes := by
    simp only [reads, List.forall_mem_cons]
    simp [pressed, released, letter]
  obtain ⟨single, sent⟩ := keys_eq_sent_iff encoded (by decide) (by decide)
  refine ⟨encoded, single.trans ?_, ?_, fun same => ?_⟩
  · decide +kernel
  · decide +kernel
  · exact absurd (sent.mp same _ List.mem_cons_self) (by decide)

end Terminal

end PocketBasic
