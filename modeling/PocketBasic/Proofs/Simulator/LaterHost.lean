import PocketBasic.Proofs.Simulator.LaterWindow

/-! # A host later on

From outside a host raises events of the lifecycle, hands on what the user does, moves the clock, and now and
then pumps its loop dry. A host that is later does the same. In a pump its loop may deliver releases of keys
that the other does not have; they come to nothing, so the events around them still pair up.
-/

namespace PocketBasic

variable {d : Delay} {σ : Type} {R : σ → σ → Prop}

/-! ## What happens to a host -/

namespace Host

section

variable [Engine σ] [Device σ]

/-- Drains the loop and hands over everything that was ready. -/
def pump (h : Host σ) : Host σ :=
  h.loop.drain.1.foldl (fun h event => h.touch (.event event)) (h.touch .drain)

/-- What a host does of its own accord, and what its user and the clock ask of it. -/
inductive Happening where
  | raise (event : Lifecycle.Event)
  | touch (act : Window.Act)
  | pump
  deriving Repr, DecidableEq

/-- Nothing is handed over that the loop has not delivered. -/
def Happening.isOutside : Happening → Bool
  | .touch a => a.isOutside
  | _ => true

/-- The same, and nothing is for the inspector. -/
def Happening.isPlain : Happening → Bool
  | .touch a => a.isOutside && !a.edits
  | _ => true

def happen (h : Host σ) : Happening → Host σ
  | .raise event => h.raise event
  | .touch a => h.touch a
  | .pump => h.pump

/-- One thing after the other. -/
def play (h : Host σ) (script : List Happening) : Host σ := script.foldl happen h

end

/-- The second host is the first, so much later. -/
structure Later (d : Delay) (R : σ → σ → Prop) (h other : Host σ) : Prop where
  lifecycle : other.lifecycle = h.lifecycle
  window : h.window.Later d R other.window
  loop : h.loop.Later d other.loop

namespace Later

variable [Engine σ] [Device σ] {h other : Host σ} (twins : Rig.Twins d.bodies R)

include twins

/-! ## Between two pumps -/

theorem raise (later : h.Later d R other) (event : Lifecycle.Event) :
    (h.raise event).Later d R (other.raise event) := by
  unfold Host.raise
  rw [later.lifecycle]
  cases h.lifecycle.dispatch event with
  | mk transition lifecycle =>
      cases transition with
      | none => exact later
      | some t =>
          obtain ⟨window, loop⟩ := later.window.transition twins later.loop t
          exact ⟨rfl, window, loop⟩

/-- An act of the one and an act of the other that comes to the same. -/
theorem touch {first second : Window.Act} (later : h.Later d R other)
    (same : Echo (Window.Behind d R) id (h.window.perform h.loop first)
      (other.window.perform other.loop second)) :
    (h.touch first).Later d R (other.touch second) := by
  obtain ⟨notice, window, loop⟩ := same
  have moved : Later d R
      { h with window := (h.window.perform h.loop first).2.1, loop := (h.window.perform h.loop first).2.2 }
      { other with
        window := (other.window.perform other.loop second).2.1
        loop := (other.window.perform other.loop second).2.2 } :=
    ⟨later.lifecycle, window, loop⟩
  unfold Host.touch
  dsimp only
  rw [notice]
  cases (h.window.perform h.loop first).1 with
  | none => exact moved
  | some notice => exact raise twins moved .stop

/-! ## The events of a pump -/

/-- A key that comes up in one of the two alone. -/
theorem lifted (later : h.Later d R other) (code : UInt8) :
    (h.touch (.event (.keyRelease code))).Later d R other := by
  obtain ⟨window, loop⟩ := later.window.keyUp twins later.loop (some code) none
  exact ⟨later.lifecycle, window, loop⟩

theorem lifts (later : h.Later d R other) {events : List SimEvent}
    (releases : ∀ event ∈ events, event.isRelease = true) :
    h.Later d R (events.foldl (fun h event => h.touch (.event event)) other) := by
  induction events generalizing other with
  | nil => exact later
  | cons event rest ih =>
      refine ih ?_ fun event member => releases event (List.mem_cons_of_mem _ member)
      cases event with
      | keyRelease code =>
          obtain ⟨window, loop⟩ := later.window.keyUp twins later.loop none (some code)
          exact ⟨later.lifecycle, window, loop⟩
      | runStep | sleepElapsed | repaintTick | cursorTick => cases releases _ List.mem_cons_self

/-- Batches that agree but for the releases in them. The releases in front of an event of the other are
    handled with it. -/
theorem handleAll (later : h.Later d R other) {events events' : List SimEvent}
    (same : events'.filter (fun e => !e.isRelease) =
      (events.filter fun e => !e.isRelease).map (.later d)) :
    (events.foldl (fun h event => h.touch (.event event)) h).Later d R
      (events'.foldl (fun h event => h.touch (.event event)) other) := by
  induction events generalizing h other events' with
  | nil =>
      refine lifts twins later fun event member => ?_
      simpa using List.filter_eq_nil_iff.mp same event member
  | cons event rest ih =>
      cases kept : event.isRelease with
      | true =>
          rw [List.filter_cons_of_neg (by simp [kept])] at same
          cases event with
          | keyRelease code => exact ih (lifted twins later code) same
          | runStep | sleepElapsed | repaintTick | cursorTick => cases kept
      | false =>
          rw [List.filter_cons_of_pos (by simp [kept]), List.map_cons] at same
          obtain ⟨before, after, rfl, releases, _, paired⟩ := List.filter_eq_cons_iff.mp same
          let reached := before.foldl (fun h event => h.touch (.event event)) other
          have lifted : h.Later d R reached := by
            refine lifts twins later fun event member => ?_
            simpa using releases event member
          have handled : (h.touch (.event event)).Later d R (reached.touch (.event (event.later d))) :=
            touch twins lifted (lifted.window.handle twins lifted.loop kept)
          rw [List.foldl_append]
          exact ih handled paired

theorem pump (later : h.Later d R other) : h.pump.Later d R other.pump := by
  have drained : (h.touch .drain).Later d R (other.touch .drain) :=
    ⟨later.lifecycle, later.window, later.loop.drain⟩
  exact handleAll twins drained later.loop.drained

/-! ## Runs -/

theorem happen (later : h.Later d R other) {happening : Happening} (plain : happening.isPlain = true) :
    (h.happen happening).Later d R (other.happen happening) := by
  cases happening with
  | raise event => exact raise twins later event
  | pump => exact pump twins later
  | touch a =>
      simp only [Happening.isPlain, Bool.and_eq_true, Bool.not_eq_true'] at plain
      exact touch twins later (later.window.perform twins later.loop plain.1 plain.2)

theorem play (later : h.Later d R other) {script : List Happening}
    (plain : ∀ happening ∈ script, happening.isPlain = true) :
    (h.play script).Later d R (other.play script) := by
  induction script generalizing h other with
  | nil => exact later
  | cons happening rest ih =>
      exact ih (happen twins later (plain happening List.mem_cons_self))
        fun happening member => plain happening (List.mem_cons_of_mem _ member)

end Later

end Host

end PocketBasic
