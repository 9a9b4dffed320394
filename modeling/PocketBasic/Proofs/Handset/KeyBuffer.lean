import PocketBasic.Proofs.Engine.KeyQueue
import PocketBasic.Proofs.Handset.Blinking

/-! # The key buffer

Keys wait in a buffer until the program takes them, in the order in which they were pressed. A key that is pressed
while sixteen wait is lost, and is the only thing that is: whatever is drawn, blinked or released in between, the
keys handed out so far and those that wait make up the keys that were let in.
-/

namespace PocketBasic.Handset

/-- The keys that have gone through the buffer since the handset was last switched on. -/
structure KeyLog where
  /-- Keys that were let in, the first in front. -/
  accepted : List UInt8
  /-- Keys that were handed out, the first in front. -/
  taken : List UInt8
  deriving Repr, DecidableEq

namespace KeyLog

/-- The log of a handset that has just been switched on. -/
def opened : KeyLog := ⟨[], []⟩

/-- Number of keys that were let in and have not been handed out. -/
def waiting (log : KeyLog) : Nat := log.accepted.length - log.taken.length

/-- Enters an operation and the key that it handed out. A key is let in while fewer than sixteen wait. -/
def enter (log : KeyLog) (handed : Option UInt8) : Operation → KeyLog
  | .keyDown key => if log.waiting < 16 then { log with accepted := log.accepted ++ [key] } else log
  | .takeKey => { log with taken := log.taken ++ handed.toList }
  | .restart => opened
  | _ => log

end KeyLog

/-- The operation puts a key into the buffer, takes one out or empties it. -/
def Operation.movesKeys : Operation → Bool
  | .keyDown _ | .takeKey | .restart => true
  | _ => false

/-- The key that an operation hands out. -/
def handedOut (h : Handset) : Operation → Option UInt8
  | .takeKey => h.takeKey.1
  | _ => none

/-- The log that is kept while operations are performed. -/
def logAll (h : Handset) (log : KeyLog) : List Operation → KeyLog
  | [] => log
  | o :: rest => (h.perform o).logAll (log.enter (h.handedOut o) o) rest

/-- Puts the key that has waited longest in the place of what a batch was to be resumed with, and tells whether there
    was one. -/
def assignKey (h : Handset) (given : Resume) : Bool × Resume × Handset :=
  match h.takeKey with
  | (some key, h) => (true, .key key, h)
  | (none, h) => (false, given, h)

/-- What was let in is what was handed out and what waits, and no more waits than the buffer holds. -/
structure Accounts (log : KeyLog) (h : Handset) : Prop where
  whole : log.taken ++ h.buffer = log.accepted
  bounded : h.buffer.length ≤ 16

variable {h : Handset} {log : KeyLog} {o : Operation}

/-! ## Single operations -/

theorem buffer_perform_of_not_movesKeys (h : Handset) (still : o.movesKeys = false) :
    (h.perform o).buffer = h.buffer := by
  cases o with
  | keyDown | takeKey | restart => cases still
  | clearScreen => simp [perform, clearScreen]
  | fill | clear | invert => simp [perform, fill, clear, invert]
  | setCursor => simp [perform, setCursor]
  | blink => exact h.buffer_blink
  | hideCaret => exact h.buffer_hideCaret
  | keyUp | takeDirty => rfl

theorem enter_keyDown (log : KeyLog) (handed : Option UInt8) (key : UInt8) :
    log.enter handed (.keyDown key) =
      if log.waiting < 16 then { log with accepted := log.accepted ++ [key] } else log := rfl

theorem enter_takeKey (log : KeyLog) (handed : Option UInt8) :
    log.enter handed .takeKey = { log with taken := log.taken ++ handed.toList } := rfl

/-- Nothing else is entered in the log. -/
theorem enter_of_not_movesKeys (log : KeyLog) (handed : Option UInt8) (still : o.movesKeys = false) :
    log.enter handed o = log := by
  cases o with
  | keyDown | takeKey | restart => cases still
  | _ => rfl

theorem buffer_restart (h : Handset) : h.restart.buffer = [] := by
  simp [restart, blank]

theorem buffer_keyDown (h : Handset) (key : UInt8) :
    (h.keyDown key).buffer = if h.buffer.length < 16 then h.buffer ++ [key] else h.buffer := rfl

theorem buffer_keyDown_eq_concat_iff (h : Handset) (key : UInt8) :
    (h.keyDown key).buffer = h.buffer ++ [key] ↔ h.buffer.length < 16 := by
  rw [buffer_keyDown]
  by_cases room : h.buffer.length < 16 <;> simp [room]

theorem buffer_keyDown_eq_self_iff (h : Handset) (key : UInt8) :
    (h.keyDown key).buffer = h.buffer ↔ 16 ≤ h.buffer.length := by
  rw [buffer_keyDown, ← Nat.not_lt]
  by_cases room : h.buffer.length < 16 <;> simp [room]

namespace Accounts

theorem waiting (accounts : Accounts log h) : log.waiting = h.buffer.length := by
  rw [KeyLog.waiting, ← accounts.whole, List.length_append, Nat.add_sub_cancel_left]

/-- The key that was let in behind those that were handed out is the one in front of the buffer. -/
theorem getElem?_accepted (accounts : Accounts log h) : log.accepted[log.taken.length]? = h.buffer.head? := by
  rw [← accounts.whole, List.getElem?_append_right (Nat.le_refl _), Nat.sub_self, List.head?_eq_getElem?]

theorem keyDown (accounts : Accounts log h) (key : UInt8) :
    Accounts (log.enter none (.keyDown key)) (h.keyDown key) := by
  rw [enter_keyDown, accounts.waiting]
  by_cases room : h.buffer.length < 16
  · have buffer : (h.keyDown key).buffer = h.buffer ++ [key] := by rw [buffer_keyDown, if_pos room]
    rw [if_pos room]
    refine ⟨?_, ?_⟩
    · rw [buffer, ← List.append_assoc, accounts.whole]
    · rw [buffer, List.length_append]
      exact room
  · have buffer : (h.keyDown key).buffer = h.buffer := by rw [buffer_keyDown, if_neg room]
    rw [if_neg room]
    exact ⟨buffer ▸ accounts.whole, buffer ▸ accounts.bounded⟩

theorem takeKey (accounts : Accounts log h) :
    Accounts (log.enter h.takeKey.1 .takeKey) h.takeKey.2 := by
  have front : h.buffer.head?.toList ++ h.buffer.tail = h.buffer := by
    cases h.buffer <;> rfl
  refine ⟨?_, ?_⟩
  · rw [enter_takeKey, takeKey_eq_head?, buffer_takeKey, List.append_assoc, front]
    exact accounts.whole
  · rw [buffer_takeKey, List.length_tail]
    exact Nat.le_trans (Nat.sub_le _ _) accounts.bounded

theorem perform (accounts : Accounts log h) (o : Operation) :
    Accounts (log.enter (h.handedOut o) o) (h.perform o) := by
  cases moves : o.movesKeys with
  | false =>
      have buffer := buffer_perform_of_not_movesKeys h moves
      rw [enter_of_not_movesKeys log _ moves]
      exact ⟨buffer ▸ accounts.whole, buffer ▸ accounts.bounded⟩
  | true =>
      cases o with
      | keyDown key => exact accounts.keyDown key
      | takeKey => exact accounts.takeKey
      | restart =>
          have empty := h.buffer_restart
          exact ⟨empty, empty ▸ Nat.zero_le 16⟩
      | _ => cases moves

theorem performAll (accounts : Accounts log h) (os : List Operation) :
    Accounts (h.logAll log os) (h.performAll os) := by
  induction os generalizing h log with
  | nil => exact accounts
  | cons o rest ih => exact ih (accounts.perform o)

/-- A key is assigned if one waits, and then it is the next of those that were let in. -/
theorem assignKey (accounts : Accounts log h) (given : Resume) :
    (∃ key, log.accepted[log.taken.length]? = some key ∧ h.assignKey given = (true, .key key, h.takeKey.2)) ∨
      (log.waiting = 0 ∧ h.assignKey given = (false, given, h)) := by
  rw [accounts.getElem?_accepted, accounts.waiting]
  unfold Handset.assignKey
  obtain ⟨refused, same⟩ | ⟨key, rest, taken⟩ := h.takeKey_cases
  · have empty : h.buffer = [] := by rwa [takeKey_eq_head?, List.head?_eq_none_iff] at refused
    refine .inr ⟨by rw [empty, List.length_nil], ?_⟩
    rw [show h.takeKey = (none, h) from Prod.ext refused same]
  · have front : h.buffer.head? = some key := by rw [← takeKey_eq_head?, taken]
    refine .inl ⟨key, front, ?_⟩
    rw [taken]

end Accounts

/-- Assigning a key takes it out of the buffer. -/
theorem assignKey_eq_perform (h : Handset) (given : Resume) : (h.assignKey given).2.2 = h.perform .takeKey := by
  unfold assignKey perform
  obtain ⟨refused, same⟩ | ⟨key, rest, taken⟩ := h.takeKey_cases
  · rw [show h.takeKey = (none, h) from Prod.ext refused same]
  · rw [taken]

/-- Whatever is done to a handset, its key buffer is a queue of at most sixteen keys: the keys that were handed out since
    it was last switched on, and then those that wait, are the keys that were let in, in their order. A key is let in
    exactly if fewer than sixteen wait. One is assigned exactly if one waits, it is the next in order, and otherwise
    nothing changes. Only pressing and taking keys and switching the handset on touch the buffer. -/
theorem keys_are_queued (os : List Operation) :
    let h := blank.performAll os
    let log := blank.logAll .opened os
    log.taken ++ h.buffer = log.accepted ∧ log.waiting = h.buffer.length ∧ h.buffer.length ≤ 16 ∧
      (∀ key, ((h.keyDown key).buffer = h.buffer ++ [key] ↔ log.waiting < 16) ∧
        ((h.keyDown key).buffer = h.buffer ↔ log.waiting = 16)) ∧
      (∀ given, (h.assignKey given).2.2 = h.perform .takeKey ∧
        ((h.assignKey given).1 = true ↔ 0 < log.waiting) ∧
        ((h.assignKey given).1 = true →
          ∃ key, log.accepted[log.taken.length]? = some key ∧ (h.assignKey given).2.1 = .key key) ∧
        ((h.assignKey given).1 = false → (h.assignKey given).2 = (given, h))) ∧
      ∀ o : Operation, o.movesKeys = false → (h.perform o).buffer = h.buffer := by
  intro h log
  have fresh : Accounts .opened blank := ⟨rfl, Nat.zero_le 16⟩
  have accounts : Accounts log h := fresh.performAll os
  have waiting := accounts.waiting
  have bounded := accounts.bounded
  refine ⟨accounts.whole, waiting, bounded, fun key => ?_, fun given => ⟨h.assignKey_eq_perform given, ?_⟩,
    fun o still => buffer_perform_of_not_movesKeys h still⟩
  · rw [buffer_keyDown_eq_concat_iff, buffer_keyDown_eq_self_iff, waiting]
    omega
  · obtain ⟨key, next, assigned⟩ | ⟨empty, kept⟩ := accounts.assignKey given
    · have below : log.taken.length < log.accepted.length := (List.getElem?_eq_some_iff.mp next).1
      have waits : 0 < log.waiting := Nat.sub_pos_of_lt below
      rw [assigned]
      exact ⟨⟨fun _ => waits, fun _ => rfl⟩, fun _ => ⟨key, next, rfl⟩, nofun⟩
    · rw [kept, empty]
      exact ⟨⟨nofun, nofun⟩, nofun, fun _ => rfl⟩

end PocketBasic.Handset
