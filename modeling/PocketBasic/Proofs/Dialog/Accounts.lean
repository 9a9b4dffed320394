import PocketBasic.Dialog.Session
import PocketBasic.Proofs.Engine.Ledger

/-! # The values of a session

Whatever is asked of a session, in whatever order: a value that one of its fields obtains is given back, handed
over with the answer, or still in its slot. A value goes back when its field is converted again, when it
cannot be used, and when the session is cancelled; it is handed over once.
-/

namespace PocketBasic

variable {σ : Type}

namespace Slot

/-- The value in a slot. -/
def held (s : Slot) : List Answer := s.value.toList

variable [Engine σ]

/-- What converting a text obtains. The value before goes back first. -/
def obtained (s : Slot) (engine : σ) (text : List Char) : List Answer :=
  Conversion.obtained (giveBack engine s.value) text s.kind

theorem tally_giveBack (l : Ledger σ) (held : List Answer) (old : Option Answer) (value : Answer) :
    (giveBack l old).tally held value = l.tally (old.toList ++ held) value := by
  cases old with
  | none => rfl
  | some old => exact l.tally_release held value old

theorem tally_convert (s : Slot) (l : Ledger σ) (text : List Char) (value : Answer) :
    (s.convert l text).2.tally (s.convert l text).1.held value =
      l.tally (s.held ++ s.obtained l text) value := by
  have answered := Conversion.tally_answer (giveBack l s.value) text s.kind value
  rw [tally_giveBack] at answered
  unfold convert held obtained
  split
  all_goals
    rename_i converted
    rw [converted] at answered
    exact answered

end Slot

namespace Session

/-- The values in the slots of a session. -/
def held (s : Session) : List Answer := s.slots.flatMap Slot.held

/-- What is asked of a session while it is open. -/
inductive Call where
  | finish (index : Nat) (text : List Char)
  | submit (texts : List (List Char))
  | cancel
  deriving Repr, DecidableEq

variable [Engine σ]

def call (s : Session) (engine : σ) : Call → Session × σ
  | .finish index text => (s.finish engine index text).2
  | .submit texts => s.submit engine texts
  | .cancel => s.cancel engine

/-- What converting every field obtains. -/
def obtainedAll (engine : σ) : List Slot → List (List Char) → List Answer
  | [], _ => []
  | slot :: slots, texts =>
      slot.obtained engine (texts.headD []) ++
        obtainedAll (slot.convert engine (texts.headD [])).2 slots texts.tail

/-- The values that a call obtains. Only a session that is edited converts. -/
def obtained (s : Session) (engine : σ) : Call → List Answer
  | .finish index text =>
      match s.state, s.slots[index]? with
      | .editing, some slot => slot.obtained engine text
      | _, _ => []
  | .submit texts =>
      match s.state with
      | .editing => obtainedAll engine s.slots texts
      | _ => []
  | .cancel => []

variable (l : Ledger σ) (value : Answer)

theorem tally_convertAll (slots : List Slot) (texts : List (List Char)) :
    (convertAll l slots texts).2.tally ((convertAll l slots texts).1.flatMap Slot.held) value =
      l.tally (slots.flatMap Slot.held ++ obtainedAll l slots texts) value := by
  induction slots generalizing l texts with
  | nil => rfl
  | cons slot rest ih =>
      have first := slot.tally_convert l (texts.headD []) value
      have others := ih (slot.convert l (texts.headD [])).2 texts.tail
      simp only [convertAll, obtainedAll, List.flatMap_cons, Ledger.tally, List.count_append] at *
      omega

theorem tally_releaseAll (slots : List Slot) (held : List Answer) :
    (releaseAll l slots).tally held value = l.tally (slots.flatMap Slot.held ++ held) value := by
  unfold releaseAll
  induction slots generalizing l with
  | nil => rfl
  | cons slot rest ih =>
      rw [List.foldl_cons, ih, Slot.tally_giveBack, List.flatMap_cons, List.append_assoc]
      rfl

/-- A new value in one slot takes the place of the old one. -/
theorem count_held_set {slots : List Slot} {index : Nat} {old : Slot} (inside : slots[index]? = some old)
    (new : Slot) :
    ((slots.set index new).flatMap Slot.held).count value + old.held.count value =
      (slots.flatMap Slot.held).count value + new.held.count value := by
  induction slots generalizing index with
  | nil => cases inside
  | cons slot rest ih =>
      cases index with
      | zero =>
          cases inside
          simp only [List.set_cons_zero, List.flatMap_cons, List.count_append]
          omega
      | succ index =>
          have others := ih inside
          simp only [List.set_cons_succ, List.flatMap_cons, List.count_append]
          omega

theorem held_emptied (slots : List Slot) :
    (slots.map fun slot => { slot with value := none }).flatMap Slot.held = [] := by
  induction slots with
  | nil => rfl
  | cons slot rest ih => exact ih

/-- Every value that a call obtains is given back or in a slot afterwards. -/
theorem tally_call (s : Session) (c : Call) :
    (s.call l c).2.tally (s.call l c).1.held value = l.tally (s.held ++ s.obtained l c) value := by
  have nothing (held : List Answer) : l.tally held value = l.tally (held ++ []) value := by
    rw [List.append_nil]
  cases c with
  | finish index text =>
      simp only [call, finish, obtained]
      cases s.state with
      | accepted | rejected => exact nothing s.held
      | editing =>
          -- Only one slot changes; what the others hold is counted before and after.
          cases inside : s.slots[index]? with
          | none => exact nothing s.held
          | some slot =>
              have converted := slot.tally_convert l text value
              have replaced := count_held_set value inside (slot.convert l text).1
              simp only [Ledger.tally, held, List.count_append] at converted ⊢
              omega
  | submit texts =>
      simp only [call, submit, obtained]
      cases s.state with
      | accepted | rejected => exact nothing s.held
      | editing => exact tally_convertAll l value s.slots texts
  | cancel =>
      simp only [call, cancel, obtained, List.append_nil]
      cases s.state with
      | accepted => rfl
      | editing | rejected =>
          dsimp only
          have returned := tally_releaseAll l value s.slots []
          rw [List.append_nil] at returned
          rw [held, held_emptied]
          exact returned

/-! ## Handing over -/

/-- A session is accepted only when all of its fields have converted. -/
theorem valid_of_call {s : Session} (editing : s.state = .editing) (engine : σ) (c : Call)
    (accepted : (s.call engine c).1.state = .accepted) :
    ∀ slot ∈ (s.call engine c).1.slots, slot.isValid = true := by
  cases c with
  | finish index text =>
      simp only [call, finish, editing] at accepted ⊢
      cases inside : s.slots[index]? with
      | none =>
          rw [inside] at accepted
          rw [show s.state = _ from accepted] at editing
          cases editing
      | some slot =>
          rw [inside] at accepted
          dsimp only at accepted ⊢
          split at accepted
          · rename_i alone
            simp only [Bool.and_eq_true, decide_eq_true_eq] at alone
            obtain ⟨valid, one⟩ := alone
            obtain ⟨only, slots⟩ := List.length_eq_one_iff.mp one
            rw [slots] at inside ⊢
            cases index with
            | zero => exact List.forall_mem_singleton.mpr valid
            | succ index => cases inside
          · cases accepted
  | submit texts =>
      simp only [call, submit, editing] at accepted ⊢
      split at accepted
      · rename_i valid
        exact List.all_eq_true.mp valid
      · cases accepted
  | cancel =>
      simp only [call, cancel, editing] at accepted
      cases accepted

/-- A session is rejected only when it is cancelled, and then it holds nothing. -/
theorem held_of_rejected {s : Session} (editing : s.state = .editing) (engine : σ) (c : Call)
    (rejected : (s.call engine c).1.state = .rejected) : (s.call engine c).1.held = [] := by
  cases c with
  | finish index text =>
      simp only [call, finish, editing] at rejected
      split at rejected
      · dsimp only at rejected
        split at rejected <;> cases rejected
      · rw [show s.state = _ from rejected] at editing
        cases editing
  | submit texts =>
      simp only [call, submit, editing] at rejected
      split at rejected <;> cases rejected
  | cancel =>
      simp only [call, cancel, editing]
      exact held_emptied s.slots

/-- The values of an accepted session are all there, until they are handed over. -/
def Sound (s : Session) : Prop :=
  s.state = .accepted → (∀ slot ∈ s.slots, slot.isValid = true) ∨ s.held = []

theorem Sound.of_editing {s : Session} (editing : s.state = .editing) : s.Sound := by
  intro accepted
  rw [editing] at accepted
  cases accepted

theorem Sound.call {s : Session} (sound : s.Sound) (engine : σ) (c : Call) :
    (s.call engine c).1.Sound := by
  cases state : s.state with
  | editing => exact fun accepted => .inl (valid_of_call state engine c accepted)
  | accepted =>
      cases c with
      | finish | submit | cancel =>
          simp only [Session.call, finish, submit, cancel, state]
          exact sound
  | rejected =>
      cases c with
      | finish | submit =>
          simp only [Session.call, finish, submit, state]
          exact sound
      | cancel =>
          simp only [Session.call, cancel, state]
          exact fun accepted => by cases accepted

theorem held_ofRequest (r : Request) : (ofRequest r).held = [] := by
  unfold held ofRequest
  induction r.fields with
  | nil => rfl
  | cons kind rest ih => exact ih

theorem mapM_value_of_valid {slots : List Slot} (valid : ∀ slot ∈ slots, slot.isValid = true) :
    slots.mapM Slot.value = some (slots.flatMap Slot.held) := by
  induction slots with
  | nil => rfl
  | cons slot rest ih =>
      obtain ⟨first, others⟩ := List.forall_mem_cons.mp valid
      obtain ⟨value, filled⟩ := Option.isSome_iff_exists.mp first
      rw [List.mapM_cons, filled, ih others, List.flatMap_cons, Slot.held, filled]
      rfl

theorem mapM_value_of_emptied {slots : List Slot} (emptied : slots.flatMap Slot.held = []) :
    (slots.mapM Slot.value).getD [] = [] := by
  cases slots with
  | nil => rfl
  | cons slot rest =>
      rw [List.flatMap_cons, List.append_eq_nil_iff] at emptied
      rw [List.mapM_cons, Option.toList_eq_nil_iff.mp emptied.1]
      rfl

/-- What an accepted session hands over leaves its slots. -/
theorem count_take {s : Session} (sound : s.Sound) :
    (s.take.1.getD []).count value + s.take.2.held.count value = s.held.count value := by
  unfold take
  cases accepted : s.state with
  | editing | rejected => simp only [Option.getD_none, List.count_nil, Nat.zero_add]
  | accepted =>
      dsimp only [held]
      rw [held_emptied, List.count_nil, Nat.add_zero]
      cases sound accepted with
      | inl valid => rw [mapM_value_of_valid valid, Option.getD_some]
      | inr emptied => rw [mapM_value_of_emptied emptied, show s.slots.flatMap Slot.held = [] from emptied]

theorem Sound.take {s : Session} (sound : s.Sound) : s.take.2.Sound := by
  unfold Session.take
  cases s.state with
  | editing | rejected => exact sound
  | accepted => exact fun _ => .inr (held_emptied s.slots)

end Session

/-! ## A session from beginning to end -/

/-- A session with its rig, and the values that it has handed over. -/
structure Desk (σ : Type) where
  session : Session
  rig : σ
  handed : List Answer

namespace Desk

/-- What is done with a session. -/
inductive Use where
  | call (c : Session.Call)
  | take
  deriving Repr, DecidableEq

/-- A session for a request. -/
def opened (r : Request) (rig : σ) : Desk σ := ⟨.ofRequest r, rig, []⟩

/-- The same desk seen with another rig. -/
def map {τ : Type} (f : σ → τ) (d : Desk σ) : Desk τ := ⟨d.session, f d.rig, d.handed⟩

/-- How often a value has been entered or handed over, or is in a slot. -/
def tally (d : Desk (Ledger σ)) (value : Answer) : Nat :=
  d.rig.tally (d.handed ++ d.session.held) value

variable [Engine σ]

def use (d : Desk σ) : Use → Desk σ
  | .call c =>
      let (session, rig) := d.session.call d.rig c
      { d with session, rig }
  | .take =>
      let (values, session) := d.session.take
      { d with session, handed := d.handed ++ values.getD [] }

def obtained (d : Desk σ) : Use → List Answer
  | .call c => d.session.obtained d.rig c
  | .take => []

theorem tally_use {d : Desk (Ledger σ)} (sound : d.session.Sound) (u : Use) (value : Answer) :
    (d.use u).tally value = d.tally value + (d.obtained u).count value := by
  cases u with
  | call c =>
      have called := Session.tally_call d.rig value d.session c
      simp only [tally, use, obtained, Ledger.tally, List.count_append] at called ⊢
      omega
  | take =>
      have taken := Session.count_take value sound
      simp only [tally, use, obtained, Ledger.tally, List.count_append, List.count_nil] at taken ⊢
      omega

theorem sound_use {d : Desk σ} (sound : d.session.Sound) (u : Use) : (d.use u).session.Sound := by
  cases u with
  | call c => exact sound.call d.rig c
  | take => exact sound.take

/-- Whatever is done with a session, in whatever order: what its fields obtain is given back, handed over, or
    still in a slot. -/
theorem perm_obtained (r : Request) (rig : σ) (uses : List Use) :
    let start := opened r (Ledger.opened rig)
    let d := uses.foldl use start
    (obtainedAlong use obtained start uses).Perm
      (d.rig.released ++ d.rig.delivered ++ (d.handed ++ d.session.held)) := by
  intro start d
  have sound : start.session.Sound := .of_editing rfl
  obtain ⟨-, counts⟩ := tally_along tally sound_use tally_use sound uses
  refine d.rig.perm_of_tally _ fun value => ?_
  have nothing : start.tally value = 0 := by
    simp only [start, tally, opened, Session.held_ofRequest]
    rfl
  exact (counts value).trans (by rw [nothing, Nat.zero_add])

end Desk

end PocketBasic
