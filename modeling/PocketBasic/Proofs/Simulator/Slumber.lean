import PocketBasic.EventLoop
import PocketBasic.Proofs.Engine.Journal

/-! # Sleeps and their ends

A program sleeps because a batch has ended so. Then a timer is armed that carries the number of the sleep, the
event of that number takes effect, and the next batch is run. The scheduler keeps of this how the last batch
has ended, the timer and the highest number. Four fields that take a few steps; what is noted along the
steps tells that none of the three is left out, and that none happens twice.
-/

namespace PocketBasic

/-- What happens to the sleeps of a program. -/
inductive SleepNote where
  /-- The engine was called. -/
  | called (call : Call)
  /-- A timer was armed that is to end the sleep of a number. -/
  | armed (id : TimerId) (generation : Nat)
  /-- The end of the sleep of a number took effect. -/
  | woke (generation : Nat)
  deriving Repr, DecidableEq

namespace SleepNote

/-- The number of the sleep that a timer is armed for. -/
def generation? : SleepNote → Option Nat
  | .armed _ generation => some generation
  | _ => none

/-- What can be noted next. Nothing but its timer, the end of it and a batch follow a sleep in the run that
    sleeps. -/
inductive Admits : Option SleepNote → SleepNote → Prop where
  | reset (newest : Option SleepNote) : Admits newest (.called .reset)
  | stop {newest : SleepNote} (other : newest ≠ .called .stop) : Admits (some newest) (.called .stop)
  | begun (outcome : Outcome) : Admits (some (.called .reset)) (.called (.exec .nothing outcome))
  | ran {before : Outcome} {given : Resume} (awake : ∀ nanoseconds, before ≠ .sleep nanoseconds)
      (resume : Resume) (outcome : Outcome) :
      Admits (some (.called (.exec given before))) (.called (.exec resume outcome))
  | armed (given : Resume) (nanoseconds : UInt64) (id : TimerId) (generation : Nat) :
      Admits (some (.called (.exec given (.sleep nanoseconds)))) (.armed id generation)
  | woke (id : TimerId) (generation : Nat) : Admits (some (.armed id generation)) (.woke generation)
  | slept (generation : Nat) (outcome : Outcome) :
      Admits (some (.woke generation)) (.called (.exec .nothing outcome))

/-- Every note, the newest in front, is admitted by the one before it. -/
def Orderly : List SleepNote → Prop
  | [] => True
  | note :: older => Admits older.head? note ∧ Orderly older

/-- What is noted after a batch that has ended with a sleep, before the next batch and the next start. -/
inductive Slept : List SleepNote → Prop where
  | asleep : Slept []
  | armed (id : TimerId) (generation : Nat) : Slept [.armed id generation]
  | woke (id : TimerId) (generation : Nat) : Slept [.woke generation, .armed id generation]
  | stopped {notes : List SleepNote} (before : Slept notes) (once : .called .stop ∉ notes) :
      Slept (.called .stop :: notes)

variable {between older : List SleepNote} {before outcome : Outcome} {given resume : Resume}
  {nanoseconds : UInt64}

theorem Orderly.of_append (orderly : Orderly (between ++ older)) : Orderly older := by
  induction between with
  | nil => exact orderly
  | cons note rest ih => exact ih orderly.2

theorem Orderly.slept
    (orderly : Orderly (between ++ .called (.exec given (.sleep nanoseconds)) :: older))
    (same : ∀ call, .called call ∈ between → call = .stop) : Slept between := by
  induction between with
  | nil => exact .asleep
  | cons note between ih =>
      obtain ⟨admitted, orderly⟩ := orderly
      have slept := ih orderly fun call member => same call (List.mem_cons_of_mem _ member)
      have other {call : Call} (noted : note = .called call) : call = .stop :=
        same call (noted ▸ List.mem_cons_self)
      cases slept with
      | asleep =>
          cases admitted with
          | reset => cases other rfl
          | stop => exact .stopped .asleep (by simp)
          | ran => cases other rfl
          | armed => exact .armed _ _
      | armed id generation =>
          cases admitted with
          | reset => cases other rfl
          | stop => exact .stopped (.armed id generation) (by simp)
          | woke => exact .woke id generation
      | woke id generation =>
          cases admitted with
          | reset => cases other rfl
          | stop => exact .stopped (.woke id generation) (by simp)
          | slept => cases other rfl
      | stopped =>
          cases admitted with
          | reset => cases other rfl
          | stop twice => exact absurd rfl twice

/-- Between a batch that has ended with a sleep and the next batch of its run one timer is armed, and the end of
    that very sleep takes effect. -/
theorem Orderly.between_execs
    (orderly : Orderly (.called (.exec resume outcome) ::
      (between ++ .called (.exec given (.sleep nanoseconds)) :: older)))
    (same : ∀ call, .called call ∈ between → call = .stop) :
    resume = .nothing ∧ ∃ id generation, between = [.woke generation, .armed id generation] := by
  obtain ⟨admitted, orderly⟩ := orderly
  cases orderly.slept same with
  | asleep =>
      cases admitted with
      | ran awake => exact absurd rfl (awake nanoseconds)
  | armed => cases admitted
  | woke id generation =>
      cases admitted with
      | slept => exact ⟨rfl, id, generation, rfl⟩
  | stopped => cases admitted

end SleepNote

/-! ## What the scheduler keeps -/

/-- What of a scheduler has to do with sleeps. -/
structure Slumber where
  running : Bool
  last : Outcome
  sleep : Option (TimerId × Nat)
  generation : Nat

namespace Slumber

open SleepNote

/-- One step, with what is noted of it. -/
inductive Step : List SleepNote → Slumber → Slumber → Prop where
  | kept (s : Slumber) : Step [] s s
  | begun (s : Slumber) : Step [.called .reset] s ⟨true, .more, none, s.generation⟩
  | stopped {s : Slumber} (going : s.last ≠ .done) :
      Step [.called .stop] s ⟨false, .done, none, s.generation⟩
  /-- A stop after the program has ended by itself, or before it has begun. -/
  | finished {s : Slumber} (ended : s.last = .done) : Step [] s ⟨false, .done, none, s.generation⟩
  | ran {s : Slumber} (running : s.running = true) (awake : ∀ nanoseconds, s.last ≠ .sleep nanoseconds)
      (going : s.last ≠ .done) (resume : Resume) (plain : s.last = .more → resume = .nothing)
      (outcome : Outcome) :
      Step [.called (.exec resume outcome)] s { s with last := outcome }
  | armed {s : Slumber} {nanoseconds : UInt64} (running : s.running = true)
      (last : s.last = .sleep nanoseconds) (awake : s.sleep = none) (id : TimerId) :
      Step [.armed id (s.generation + 1)] s
        { s with sleep := some (id, s.generation + 1), generation := s.generation + 1 }
  | woke {s : Slumber} {id : TimerId} {generation : Nat} (asleep : s.sleep = some (id, generation)) :
      Step [.woke generation] s { s with last := .more, sleep := none }
  | failed {s : Slumber} {fault : RunFault} (last : s.last = .failed fault) :
      Step [] s { s with last := .done }

/-- What the newest note tells about the scheduler. -/
inductive Stands : Option SleepNote → Slumber → Prop where
  | off {newest : Option SleepNote} {s : Slumber}
      (calls : ∀ note, newest = some note → ∃ call, note = .called call)
      (halted : s.running = false) (last : s.last = .done) (awake : s.sleep = none) : Stands newest s
  | begun {s : Slumber} (last : s.last = .more) (awake : s.sleep = none) :
      Stands (some (.called .reset)) s
  /-- A fault is forgotten once it was handed on. -/
  | ran {s : Slumber} {resume : Resume} {outcome : Outcome} (last : s.last = outcome ∨ s.last = .done)
      (awake : s.sleep = none) : Stands (some (.called (.exec resume outcome))) s
  | armed {s : Slumber} {id : TimerId} {generation : Nat} {nanoseconds : UInt64}
      (running : s.running = true) (last : s.last = .sleep nanoseconds)
      (asleep : s.sleep = some (id, generation)) : Stands (some (.armed id generation)) s
  | woke {s : Slumber} {generation : Nat} (running : s.running = true) (last : s.last = .more)
      (awake : s.sleep = none) : Stands (some (.woke generation)) s

/-- The notes are orderly and say what the scheduler keeps, and every sleep has a number of its own. -/
structure Told (notes : List SleepNote) (s : Slumber) : Prop where
  orderly : Orderly notes
  stands : Stands notes.head? s
  numbered : (notes.filterMap generation?).Pairwise (· > ·)
  bounded : ∀ generation ∈ notes.filterMap generation?, generation ≤ s.generation

variable {notes new : List SleepNote} {s other : Slumber}

theorem told_nil (s : Slumber) (halted : s.running = false) (last : s.last = .done)
    (awake : s.sleep = none) : Told [] s :=
  ⟨trivial, .off nofun halted last awake, .nil, nofun⟩

namespace Stands

variable {newest : Option SleepNote}

theorem stop (stands : Stands newest s) (going : s.last ≠ .done) : Admits newest (.called .stop) := by
  cases stands with
  | off _ _ last _ => exact absurd last going
  | begun | ran | armed | woke => exact .stop (by simp)

theorem exec (stands : Stands newest s) (running : s.running = true)
    (awake : ∀ nanoseconds, s.last ≠ .sleep nanoseconds) (going : s.last ≠ .done) {resume : Resume}
    (plain : s.last = .more → resume = .nothing) (outcome : Outcome) :
    Admits newest (.called (.exec resume outcome)) ∧ s.sleep = none := by
  cases stands with
  | off _ halted _ _ => simp [running] at halted
  | begun last free =>
      rw [plain last]
      exact ⟨.begun outcome, free⟩
  | ran last free =>
      refine ⟨.ran (fun nanoseconds same => ?_) resume outcome, free⟩
      exact awake nanoseconds ((last.resolve_right going).trans same)
  | armed _ last _ => exact absurd last (awake _)
  | woke _ last free =>
      rw [plain last]
      exact ⟨.slept _ outcome, free⟩

theorem arm (stands : Stands newest s) {nanoseconds : UInt64} (last : s.last = .sleep nanoseconds)
    (awake : s.sleep = none) (id : TimerId) (generation : Nat) :
    Admits newest (.armed id generation) := by
  cases stands with
  | off _ _ other _ | begun other _ | woke _ other _ => simp [last] at other
  | ran other _ =>
      rcases other with same | done
      · rw [← same, last]
        exact .armed _ nanoseconds id generation
      · simp [last] at done
  | armed _ _ asleep => simp [awake] at asleep

/-- Only a sleep whose timer was noted last can end. -/
theorem newest_of_asleep (stands : Stands newest s) {timer : TimerId × Nat}
    (asleep : s.sleep = some timer) : newest = some (.armed timer.1 timer.2) ∧ s.running = true := by
  cases stands with
  | off _ _ _ awake | begun _ awake | ran _ awake | woke _ _ awake => simp [asleep] at awake
  | armed running _ same =>
      rw [asleep] at same
      cases same
      exact ⟨rfl, running⟩

/-- Nothing is left of a sleep where a batch has ended the run. -/
theorem calls (stands : Stands newest s) (ended : s.last = .done) {note : SleepNote}
    (noted : newest = some note) : ∃ call, note = .called call := by
  cases stands with
  | off calls _ _ _ => exact calls note noted
  | begun => exact ⟨_, (Option.some.inj noted).symm⟩
  | ran => exact ⟨_, (Option.some.inj noted).symm⟩
  | armed _ last _ => simp [ended] at last
  | woke _ last _ => simp [ended] at last

theorem of_armed {id : TimerId} {generation : Nat} (stands : Stands (some (.armed id generation)) s) :
    s.running = true ∧ s.sleep = some (id, generation) := by
  cases stands with
  | off calls _ _ _ => exact nomatch calls _ rfl
  | armed running _ asleep => exact ⟨running, asleep⟩

/-- A sleep that has ended last is over, and its program runs. -/
theorem of_woke {generation : Nat} (stands : Stands (some (.woke generation)) s) :
    s.running = true ∧ s.last = .more := by
  cases stands with
  | off calls _ _ _ => exact nomatch calls _ rfl
  | woke running last _ => exact ⟨running, last⟩

theorem failed (stands : Stands newest s) {fault : RunFault} (last : s.last = .failed fault) :
    Stands newest { s with last := .done } := by
  cases stands with
  | off _ _ other _ | begun other _ | woke _ other _ | armed _ other _ => simp [last] at other
  | ran _ awake => exact .ran (.inr rfl) awake

end Stands

namespace Told

/-- A note that arms no timer. -/
theorem cons {note : SleepNote} (told : Told notes s) (admitted : Admits notes.head? note)
    (stands : Stands (some note) other) (unarmed : note.generation? = none)
    (generation : other.generation = s.generation) : Told (note :: notes) other := by
  refine ⟨⟨admitted, told.orderly⟩, stands, ?_, ?_⟩
  · rw [List.filterMap_cons_none unarmed]
    exact told.numbered
  · rw [List.filterMap_cons_none unarmed, generation]
    exact told.bounded

theorem step (told : Told notes s) (step : Step new s other) : Told (new ++ notes) other := by
  have stands := told.stands
  cases step with
  | kept => exact told
  | begun => exact told.cons (.reset _) (.begun rfl rfl) rfl rfl
  | finished ended =>
      exact ⟨told.orderly, .off (fun _ => stands.calls ended) rfl rfl rfl, told.numbered, told.bounded⟩
  | stopped going =>
      have off : Stands (some (.called .stop)) ⟨false, .done, none, s.generation⟩ :=
        .off (fun _ noted => ⟨.stop, (Option.some.inj noted).symm⟩) rfl rfl rfl
      exact told.cons (stands.stop going) off rfl rfl
  | ran running asked going resume plain outcome =>
      obtain ⟨admitted, free⟩ := stands.exec running asked going plain outcome
      exact told.cons admitted (.ran (.inl rfl) free) rfl rfl
  | armed running last awake id =>
      refine ⟨⟨stands.arm last awake id _, told.orderly⟩, .armed running last rfl, ?_, ?_⟩
      · exact List.pairwise_cons.mpr
          ⟨fun generation member => Nat.lt_succ_of_le (told.bounded generation member), told.numbered⟩
      · intro generation member
        rcases List.mem_cons.mp member with rfl | member
        · exact Nat.le_refl _
        · exact Nat.le_succ_of_le (told.bounded generation member)
  | woke asleep =>
      obtain ⟨newest, running⟩ := stands.newest_of_asleep asleep
      refine told.cons ?_ (.woke running rfl rfl) rfl rfl
      rw [newest]
      exact .woke _ _
  | failed last =>
      exact ⟨told.orderly, stands.failed last, told.numbered, told.bounded⟩

end Told

end Slumber

end PocketBasic
