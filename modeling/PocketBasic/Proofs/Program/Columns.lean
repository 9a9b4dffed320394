import PocketBasic.Playback
import PocketBasic.Proofs.Program.Parentheses
import PocketBasic.Proofs.Text.Bytes
import PocketBasic.Proofs.Text.Codes

/-! # Columns of messages

A message about a function body says where the piece it is about starts and stops. The engine of a rehearsal counts the
bytes before both places. The pocket computer counts the characters, so its message is about the bytes of a character
only if that character and all before it are ASCII.
-/

namespace PocketBasic

/-- A message starts and stops at the byte offsets of two places in a text. -/
def Diagnostic.Covers (d : Diagnostic) (s : List Char) (first past : Nat) : Prop :=
  d.start = Text.byteOffset s first ∧ d.stop = Text.byteOffset s past

namespace PlaybackEngine

open Text

variable {pattern s body : List Char} {offset skip start : Nat} {d : Diagnostic}

theorem mem_occurrences (member : start ∈ occurrences pattern offset skip s) :
    ∃ place, start = offset + byteOffset s place ∧ pattern <+: s.drop place := by
  induction s generalizing offset skip with
  | nil =>
      rw [occurrences] at member
      split at member
      · rename_i empty
        rw [List.mem_singleton.mp member, List.isEmpty_iff.mp empty]
        exact ⟨0, rfl, List.nil_prefix⟩
      · cases member
  | cons c rest ih =>
      have later {skip : Nat} (member : start ∈ occurrences pattern (offset + c.utf8Size) skip rest) :
          ∃ place, start = offset + byteOffset (c :: rest) place ∧ pattern <+: (c :: rest).drop place := by
        obtain ⟨place, rfl, found⟩ := ih member
        exact ⟨place + 1, Nat.add_assoc _ _ _, found⟩
      unfold occurrences at member
      split at member
      · exact later member
      · split at member
        · rename_i found
          rcases List.mem_cons.mp member with rfl | member
          · exact ⟨0, rfl, List.isPrefixOf_iff_prefix.mp found⟩
          · exact later member
        · exact later member

/-- The messages of a rehearsal are about the bytes of the text that is not to compile. -/
theorem covers_of_mem_diagnostics {e : PlaybackEngine} {bad : String} (rejected : e.reject = some bad)
    (member : d ∈ e.diagnostics body) :
    ∃ place, bad.toList <+: body.drop place ∧ d.Covers body place (place + bad.toList.length) := by
  rw [diagnostics, rejected] at member
  obtain ⟨start, found, rfl⟩ := List.mem_map.mp member
  obtain ⟨place, rfl, here⟩ := mem_occurrences found
  have size : bad.utf8ByteSize = byteLength bad.toList := by
    rw [← utf8ByteSize_ofList, String.ofList_toList]
  have past : byteOffset body (place + bad.toList.length) = byteOffset body place + bad.utf8ByteSize := by
    rw [byteOffset, List.take_add, ← List.prefix_iff_eq_take.mp here, byteLength_append, byteOffset, size]
  refine ⟨place, here, Nat.zero_add _, ?_⟩
  rw [past, Nat.zero_add]

end PlaybackEngine

namespace FunctionBody

open Text

variable {s : List Char} {c : Char} {place : Nat} {message : String}

theorem IsAllowed.ascii (allowed : IsAllowed c) : c.toNat < 128 := by
  rcases allowed with letter | sign
  · exact Nat.lt_of_le_of_lt (code_of_isAlphanum letter).2 (by decide)
  · have all : ∀ d ∈ "() _.+-*/^<>=$".toList, d.toNat < 128 := by simp
    exact all c sign

/-- There is something to say about the characters of the text only. -/
theorem Fault.lt_length (fault : Fault s place message) : place < s.length := by
  cases fault with
  | unexpected here _ | unmatched here _ | unclosed here _ => exact (List.getElem?_eq_some_iff.mp here).1

/-- A message about a character that no body has names the character at its place. -/
theorem Fault.eq_of_unexpected
    (fault : Fault s place ("unexpected character '" ++ String.singleton c ++ "'")) : s[place]? = some c := by
  generalize said : "unexpected character '" ++ String.singleton c ++ "'" = message at fault
  have text := congrArg String.toList said
  cases fault with
  | unexpected here _ =>
      simp only [String.toList_append, String.toList_singleton, List.append_cancel_left_eq,
        List.append_cancel_right_eq, List.singleton_inj] at text
      rw [here, text]
  | unmatched _ _ | unclosed _ _ => simp at text

/-- A message covers the character at its place if no character up to there takes more than one byte. -/
theorem covers_errorAt_iff (inside : place < s.length) :
    (errorAt place message).Covers s place (place + 1) ↔ ∀ ch ∈ s.take (place + 1), ch.toNat < 128 := by
  have before : s.take place <+: s.take (place + 1) := List.take_prefix_take_left (Nat.le_succ place)
  constructor
  · rintro ⟨-, stop⟩
    exact (byteOffset_eq_iff inside).mp stop.symm
  · intro ascii
    refine ⟨?_, ((byteOffset_eq_iff inside).mpr ascii).symm⟩
    exact ((byteOffset_eq_iff (Nat.le_of_lt inside)).mpr fun ch member => ascii ch (before.subset member)).symm

/-- Each message about a body that is not blank covers the character it is about if that character and those before it
    are ASCII. All of them do if the body is ASCII throughout, and otherwise one does not cover any character that it
    could be about. -/
theorem compile_covers_iff (c : Computer) (units : List UInt16)
    (spoken : (Text.ofUnitsLossy units).all Text.isBlank = false) :
    let compiled := (Engine.compile c units).1
    let body := compiled.body.source.toList
    (∀ d ∈ compiled.diagnostics, ∃ place, Fault body place d.message ∧ d = errorAt place d.message ∧
      (d.Covers body place (place + 1) ↔ ∀ ch ∈ body.take (place + 1), ch.toNat < 128)) ∧
    ((∀ d ∈ compiled.diagnostics, ∃ place, Fault body place d.message ∧ d.Covers body place (place + 1)) ↔
      ∀ ch ∈ body, ch.toNat < 128) := by
  intro compiled body
  have source : body = Text.ofUnitsLossy units := String.toList_ofList
  have messages : compiled.diagnostics = check 0 [] body := by
    rw [source]
    exact if_neg (by simp [spoken])
  have told {d : Diagnostic} (member : d ∈ compiled.diagnostics) :
      ∃ place, Fault body place d.message ∧ d = errorAt place d.message := by
    rw [messages] at member
    obtain ⟨place, message, fault, rfl⟩ := mem_check_iff.mp member
    exact ⟨place, fault, rfl⟩
  refine ⟨fun d member => ?_, fun covered ch member => ?_, fun ascii d member => ?_⟩
  · obtain ⟨place, fault, same⟩ := told member
    refine ⟨place, fault, same, ?_⟩
    rw [same]
    exact covers_errorAt_iff fault.lt_length
  · -- A character that is not ASCII is complained about itself, and takes more bytes than the message has.
    refine Classical.byContradiction fun foreign => ?_
    have strange : ¬IsAllowed ch := fun allowed => foreign allowed.ascii
    obtain ⟨place, here⟩ := List.mem_iff_getElem?.mp member
    have message := mem_check_iff.mpr ⟨place, _, Fault.unexpected here strange, rfl⟩
    rw [← messages] at message
    obtain ⟨other, fault, start, stop⟩ := covered _ message
    have again : body[other]? = some ch := fault.eq_of_unexpected
    have width : ch.utf8Size = 1 := by
      rw [byteOffset_succ again, ← start] at stop
      exact (Nat.add_left_cancel stop).symm
    exact foreign (utf8Size_eq_one_iff_ascii.mp width)
  · obtain ⟨place, fault, same⟩ := told member
    refine ⟨place, fault, ?_⟩
    rw [same]
    exact (covers_errorAt_iff fault.lt_length).mpr fun ch inside => ascii ch (List.mem_of_mem_take inside)

/-- The messages about `é@` start at the bytes 0 and 1, and the second character is byte 2. -/
theorem compile_covers_iff_accented :
    let units := Text.toUnits ['é', '@']
    let compiled := (Engine.compile (Computer.ofProgram []) units).1
    let body := compiled.body.source.toList
    (Text.ofUnitsLossy units).all Text.isBlank = false ∧
      compiled.diagnostics = [errorAt 0 "unexpected character 'é'", errorAt 1 "unexpected character '@'"] ∧
      byteOffset body 1 = 2 ∧
      ¬∀ d ∈ compiled.diagnostics, ∃ place, Fault body place d.message ∧ d.Covers body place (place + 1) := by
  intro units compiled body
  have spoken : (Text.ofUnitsLossy units).all Text.isBlank = false := by decide
  refine ⟨spoken, by decide, by decide, fun covered => ?_⟩
  have ascii := (compile_covers_iff (Computer.ofProgram []) units spoken).2.mp covered 'é'
  exact absurd (ascii (by decide)) (by decide)

end FunctionBody

end PocketBasic
