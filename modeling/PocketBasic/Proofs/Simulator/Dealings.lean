import PocketBasic.Playback
import PocketBasic.Proofs.Simulator.Accounts
import PocketBasic.Proofs.Simulator.WindowMap

/-! # Every value is accounted for

A host may do anything with its window, offer answers that nobody has asked for, and close the window when it
has stopped the program. Wherever that leads: what the fields have obtained is what was given back to the
engine, what went into its batches, and what the window holds.
-/

namespace PocketBasic

/-- What a host does that may move values. -/
inductive Host.Dealing where
  | act (a : Host.Act)
  /-- An answer past the dialog, for a scheduler that has not asked. -/
  | offer (values : List Answer)
  /-- The program is stopped before its window is closed. -/
  | close
  deriving Repr, DecidableEq

namespace Host

variable {σ : Type}

/-- How often a value has been entered or is held. -/
def tally (h : Host (Ledger σ)) (value : Answer) : Nat := h.window.tally value

/-- A host that can stop and start its program without a loss. -/
def Orderly (h : Host σ) : Prop := h.window.Orderly h.lifecycle

variable [Engine σ] [Device σ]

/-- Offers an answer, unless a dialog is there to give one. -/
def offer (h : Host σ) (values : List Answer) : Host σ :=
  if h.window.scheduler.isPrompting then h
  else
    let (window, loop) := h.window.settle ((h.window.bench h.loop).provide values)
    { h with window, loop }

def close (h : Host σ) : Host σ :=
  let h := h.raise .stop
  let (window, loop) := h.window.close h.loop
  { h with window, loop }

def deal (h : Host σ) : Dealing → Host σ
  | .act a => h.act a
  | .offer values => h.offer values
  | .close => h.close

omit [Device σ] in
/-- The values that a dealing obtains. -/
def obtained (h : Host σ) : Dealing → List Answer
  | .act (.touch a) => h.window.obtained a
  | .act (.raise _) | .close => []
  | .offer values => if h.window.scheduler.isPrompting then [] else values

variable {h : Host (Ledger σ)}

/-- A host after something that obtains values: these are accounted for, and there is order again. -/
structure Balanced (h : Host (Ledger σ)) (obtained : List Answer) (other : Host (Ledger σ)) : Prop where
  tally : ∀ value, other.tally value = h.tally value + obtained.count value
  orderly : other.Orderly

/-- A stop needs no order but that of the dialog. -/
theorem balanced_stopped (editing : h.window.Editing) (event : Lifecycle.Event) :
    Balanced h [] (h.moved ⟨h.lifecycle, .stopped, event⟩) :=
  ⟨fun value => Window.tally_stopped value editing h.lifecycle event,
    Window.orderly_stopped h.window h.loop h.lifecycle event⟩

namespace Orderly

theorem raise (orderly : h.Orderly) (event : Lifecycle.Event) : Balanced h [] (h.raise event) := by
  have window : h.window.Orderly h.lifecycle := orderly
  refine raise_cases h event ?kept ?started ?paused ?continued ?stopped
  case kept => exact ⟨fun _ => rfl, orderly⟩
  case started =>
    intro stopped
    exact ⟨fun value => Window.tally_started value window.editing (window.idle stopped) event,
      Window.orderly_started h.window h.loop event⟩
  case paused =>
    intro running
    rw [running] at window
    exact ⟨fun value => Window.tally_paused value event, window.paused event⟩
  case continued =>
    intro waiting
    rw [waiting] at window
    exact ⟨fun value => Window.tally_continued value event, window.continued event⟩
  case stopped => exact fun _ => balanced_stopped window.editing event

theorem touch (orderly : h.Orderly) (a : Window.Act) :
    Balanced h (h.window.obtained a) (h.touch a) := by
  obtain ⟨begun, inStep⟩ := orderly.inStep
  have told : Window.InStep.Told h.lifecycle begun (h.window.perform h.loop a) := inStep.perform a
  have balanced : Window.Balanced h.lifecycle h.window (h.window.obtained a)
      (h.window.perform h.loop a).2.1 := Window.Orderly.perform orderly a
  unfold Host.touch
  cases performed : h.window.perform h.loop a with
  | mk notice state =>
      rw [performed] at told balanced
      cases notice with
      | none => exact ⟨balanced.tally, ⟨begun, told⟩, balanced.editing, balanced.idle⟩
      | some notice =>
          -- The window may be out of step by now, so nothing but the stop itself can follow.
          let later : Host (Ledger σ) := { h with window := state.1, loop := state.2 }
          have running : later.lifecycle ≠ .stopped := told
          have stopped : Balanced later [] (later.raise .stop) := by
            rw [raise_stop running]
            exact balanced_stopped balanced.editing .stop
          exact ⟨fun value => (stopped.tally value).trans (balanced.tally value), stopped.orderly⟩

omit [Device σ] in
theorem offer (orderly : h.Orderly) (values : List Answer) :
    Balanced h (h.obtained (.offer values)) (h.offer values) := by
  unfold Host.offer obtained
  cases prompting : h.window.scheduler.isPrompting with
  | true => exact ⟨fun _ => rfl, orderly⟩
  | false =>
      let b := h.window.bench h.loop
      have refused : b.provide values = b.releaseAll values := if_neg (ne_true_of_eq_false prompting)
      have scheduler : (b.provide values).scheduler = h.window.scheduler := congrArg Bench.scheduler refused
      obtain ⟨begun, inStep⟩ := orderly.inStep
      refine ⟨fun value => ?_, ⟨begun, inStep.of_same scheduler rfl rfl⟩, orderly.editing, ?_⟩
      · calc
          _ = (b.provide values).tally value + h.window.dialogHeld.count value :=
            Window.tally_bench value (h.window.settle (b.provide values)).1 (b.provide values).loop
          _ = b.tally value + h.window.dialogHeld.count value + values.count value := by
            rw [b.tally_provide, Nat.add_right_comm]
          _ = h.window.tally value + values.count value := by
            rw [← Window.tally_bench value h.window h.loop]
      · intro stopped
        rw [← orderly.idle stopped, ← scheduler]
        rfl

/-- There is no dialog left for the window to close. -/
theorem close (orderly : h.Orderly) : Balanced h [] h.close := by
  have stopped := orderly.raise .stop
  obtain ⟨begun, inStep⟩ := stopped.orderly.inStep
  rw [h.lifecycle_raise_stop] at inStep
  have same : (h.raise .stop).window.closeDialog = (h.raise .stop).window := by
    rw [Window.closeDialog, inStep.closed]
  refine ⟨fun value => ?_, ?_⟩
  · rw [← stopped.tally value, tally, tally, ← same]
    rfl
  · have orderly := stopped.orderly
    rw [Orderly, ← same] at orderly
    exact orderly

theorem deal (orderly : h.Orderly) (dealing : Dealing) :
    Balanced h (h.obtained dealing) (h.deal dealing) := by
  cases dealing with
  | act a =>
      cases a with
      | raise event => exact orderly.raise event
      | touch a => exact orderly.touch a
  | offer values => exact orderly.offer values
  | close => exact orderly.close

end Orderly

end Host

/-! ## Keeping books changes nothing -/

section Map

variable {σ τ : Type} [Engine σ] [Device σ] [Engine τ] [Device τ]

theorem Ledger.hom : Rig.Hom (Ledger.rig : Ledger σ → σ) where
  exec _ _ _ := rfl
  stop _ := rfl
  reset _ := rfl
  compile _ _ := rfl
  encode _ := rfl
  release _ _ := rfl
  store _ := rfl
  withStore _ _ := rfl
  restart _ := rfl
  takeKey _ := rfl
  keyDown _ _ := rfl
  keyUp _ _ := rfl
  blink _ := rfl
  hideCaret _ := rfl
  takeDirty _ := rfl
  pixel _ := rfl

variable {f : σ → τ} (hom : Rig.Hom f)

include hom

theorem Host.map_deal (h : Host σ) (dealing : Dealing) :
    (h.map f).deal dealing = (h.deal dealing).map f := by
  cases dealing with
  | act a =>
      cases a with
      | raise event => exact map_raise hom h event
      | touch a => exact map_touch hom h a
  | offer values =>
      have bench : (h.map f).window.bench (h.map f).loop = (h.window.bench h.loop).map f := rfl
      simp only [deal, offer]
      rw [apply_ite (map f), bench, Bench.map_provide _ hom]
      rfl
  | close =>
      have closed := Window.map_closeDialog hom (h.raise .stop).window
      simp only [deal, close, map_raise hom, Window.close]
      simp only [map, closed]

theorem Desk.map_use (d : Desk σ) (u : Use) : (d.map f).use u = (d.use u).map f := by
  cases u with
  | take => rfl
  | call c =>
      cases c with
      | finish index text =>
          simp only [use, map, Session.call, hom.finish]
          rfl
      | submit texts =>
          simp only [use, map, Session.call, hom.submit]
          rfl
      | cancel =>
          simp only [use, map, Session.call, hom.cancel]
          rfl

end Map

namespace Host

variable {σ : Type} [Engine σ] [Device σ]

theorem perm_obtained (name : String) (rig : σ) (settings : SimulatorSettings) (dealings : List Dealing) :
    let start := opened name (Ledger.opened rig) settings
    let h := dealings.foldl deal start
    (obtainedAlong deal obtained start dealings).Perm
        (h.window.rig.released ++ h.window.rig.delivered ++ h.window.held) ∧ h.Orderly := by
  intro start h
  have new : start.Orderly := Window.orderly_opened name (Ledger.opened rig) settings
  obtain ⟨orderly, counts⟩ := tally_along tally (fun good dealing => (good.deal dealing).orderly)
    (fun good dealing => (good.deal dealing).tally) new dealings
  refine ⟨h.window.rig.perm_of_tally _ fun value => ?_, orderly⟩
  have nothing : start.tally value = 0 := rfl
  exact (counts value).trans (by rw [nothing, Nat.zero_add])

/-- Whatever a host does, a ledger does not get in its way, and every value that its fields have obtained was
    given back to the engine once, or went into one batch, or is held; after a stop nothing is held. A session
    by itself loses nothing either, whatever is asked of it. -/
theorem values_accounted (name : String) (rig : σ) (settings : SimulatorSettings)
    (dealings : List Dealing) (request : Request) (uses : List Desk.Use) :
    let start := opened name (Ledger.opened rig) settings
    let h := dealings.foldl deal start
    let desk := Desk.opened request (Ledger.opened rig)
    let d := uses.foldl Desk.use desk
    (h.map Ledger.rig = dealings.foldl deal (opened name rig settings) ∧
        (obtainedAlong deal obtained start dealings).Perm
          (h.window.rig.released ++ h.window.rig.delivered ++ h.window.held) ∧
        (h.lifecycle = .stopped → h.window.held = [])) ∧
      d.map Ledger.rig = uses.foldl Desk.use (.opened request rig) ∧
      (obtainedAlong Desk.use Desk.obtained desk uses).Perm
        (d.rig.released ++ d.rig.delivered ++ (d.handed ++ d.session.held)) := by
  intro start h desk d
  obtain ⟨accounted, orderly⟩ := perm_obtained name rig settings dealings
  have nothing (stopped : h.lifecycle = .stopped) : h.window.held = [] := by
    have orderly : h.window.Orderly h.lifecycle := orderly
    rw [stopped] at orderly
    exact orderly.held_stopped
  have seen : h.map Ledger.rig = dealings.foldl deal (opened name rig settings) :=
    (List.foldl_hom (map Ledger.rig) fun h dealing => map_deal Ledger.hom h dealing).symm
  have used : d.map Ledger.rig = uses.foldl Desk.use (.opened request rig) :=
    (List.foldl_hom (Desk.map Ledger.rig) fun d u => Desk.map_use Ledger.hom d u).symm
  exact ⟨⟨seen, accounted, nothing⟩, used, Desk.perm_obtained request rig uses⟩

/-- A program asks for a string and an integer. The string is converted when its field is left and again with
    the rest, and an answer that comes too late goes back. -/
theorem values_accounted_twice :
    let start : Host (Ledger Playback) :=
      opened "ask" (.opened ⟨.ofResults [.input ⟨none, [.string, .integer]⟩], .ofLit []⟩) .standard
    let step : Dealing := .act (.touch (.event .runStep))
    let dealings : List Dealing :=
      [.act (.raise .start), step, step, .act (.touch (.paste ['A'])), .act (.touch (.dialog .tab default)),
        .act (.touch (.paste ['7'])), .act (.touch (.dialog .ctrlEnter default)), .offer [.integer 9], step,
        step]
    let h := dealings.foldl deal start
    obtainedAlong deal obtained start dealings =
        [.string ⟨[65]⟩, .string ⟨[65]⟩, .integer 7, .integer 9] ∧
      h.window.rig.released = [.string ⟨[65]⟩, .integer 9] ∧
      h.window.rig.delivered = [.string ⟨[65]⟩, .integer 7] ∧
      h.lifecycle = .stopped ∧ h.window.held = [] := by
  intro start step dealings h
  have stopped : h.lifecycle = .stopped := by decide +kernel
  obtain ⟨⟨_, _, nothing⟩, _⟩ := values_accounted "ask"
    (⟨.ofResults [.input ⟨none, [.string, .integer]⟩], .ofLit []⟩ : Playback) .standard dealings
    ⟨none, []⟩ []
  exact ⟨by decide +kernel, by decide +kernel, by decide +kernel, stopped, nothing stopped⟩

end Host

end PocketBasic
