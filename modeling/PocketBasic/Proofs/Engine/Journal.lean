import PocketBasic.Proofs.Engine.Hom
import PocketBasic.Proofs.Engine.Keeps

/-! # Journals

A journal is a rig that writes down when its engine is reset, runs a batch and is stopped. That a fault was
handed on is no business of an engine; whoever does so enters it. In an orderly journal every entry is
admitted by the one before it, so what can follow what, at any distance, is a matter of single entries.
-/

namespace PocketBasic

/-- The batch has ended its run. -/
def Outcome.isFinal : Outcome → Bool
  | .done | .failed _ => true
  | _ => false

/-- An entry of a journal. -/
inductive Call where
  | reset
  | exec (resume : Resume) (outcome : Outcome)
  | stop
  /-- The fault was handed to whoever shows it. -/
  | report (fault : RunFault)
  deriving Repr, DecidableEq

/-- A rig and what was asked of its engine, the newest entry in front. -/
structure Journal (σ : Type) where
  rig : σ
  calls : List Call

variable {σ : Type}

namespace Journal

instance [Engine σ] : Engine (Journal σ) where
  exec j resume budget :=
    let (outcome, rig) := Engine.exec j.rig resume budget
    (outcome, ⟨rig, .exec resume outcome :: j.calls⟩)
  stop j :=
    let (complaint, rig) := Engine.stop j.rig
    (complaint, ⟨rig, .stop :: j.calls⟩)
  reset j := ⟨Engine.reset j.rig, .reset :: j.calls⟩
  compile j units :=
    let (compilation, rig) := Engine.compile j.rig units
    (compilation, { j with rig })
  encode j := Engine.encode j.rig
  release j value := { j with rig := Engine.release j.rig value }
  store j := Engine.store j.rig
  withStore j store := { j with rig := Engine.withStore j.rig store }
  brokenOff j := Engine.brokenOff j.rig

instance [Device σ] : Device (Journal σ) where
  restart j := { j with rig := Device.restart j.rig }
  takeKey j :=
    let (key, rig) := Device.takeKey j.rig
    (key, { j with rig })
  keyDown j key := { j with rig := Device.keyDown j.rig key }
  keyUp j key := { j with rig := Device.keyUp j.rig key }
  blink j := { j with rig := Device.blink j.rig }
  hideCaret j := { j with rig := Device.hideCaret j.rig }
  isPressed j := Device.isPressed j.rig
  takeDirty j :=
    let (area, rig) := Device.takeDirty j.rig
    (area, { j with rig })
  pixel j := Device.pixel j.rig

theorem hom [Engine σ] [Device σ] : Rig.Hom (Journal.rig : Journal σ → σ) where
  exec _ _ _ := rfl
  stop _ := rfl
  reset _ := rfl
  compile _ _ := rfl
  encode _ := rfl
  release _ _ := rfl
  store _ := rfl
  withStore _ _ := rfl
  restart _ := rfl
  takeKey _ := rfl
  keyDown _ _ := rfl
  keyUp _ _ := rfl
  blink _ := rfl
  hideCaret _ := rfl
  takeDirty _ := rfl
  pixel _ := rfl

/-- Enters a fault that was handed on. -/
def report (j : Journal σ) (fault : RunFault) : Journal σ :=
  { j with calls := .report fault :: j.calls }

theorem keeps [Engine σ] : Engine.Keeps (Journal.calls : Journal σ → List Call) where
  compile _ _ := rfl
  release _ _ := rfl
  withStore _ _ := rfl

end Journal

/-! ## Orderly journals -/

namespace Call

/-- No run is under way, so far as the newest entry tells. -/
inductive Over : Option Call → Prop where
  | none : Over none
  | stopped : Over (some .stop)
  | reported (fault : RunFault) : Over (some (.report fault))
  | done (resume : Resume) : Over (some (.exec resume .done))

/-- The newest entry belongs to a run that can go on. -/
inductive Going : Option Call → Prop where
  | begun : Going (some .reset)
  | ran {resume : Resume} {outcome : Outcome} (more : outcome.isFinal = false) :
      Going (some (.exec resume outcome))

/-- What can be entered next. A run is reset once, then its batches follow; the last of them is followed by
    the report of its fault, or by a stop unless it is done. -/
inductive Admits : Option Call → Call → Prop where
  | reset {newest : Option Call} (ended : Over newest) : Admits newest .reset
  | exec {newest : Option Call} (going : Going newest) (resume : Resume) (outcome : Outcome) :
      Admits newest (.exec resume outcome)
  | stop {newest : Option Call} (going : Going newest) : Admits newest .stop
  | stopFailed (resume : Resume) (fault : RunFault) :
      Admits (some (.exec resume (.failed fault))) .stop
  | report (resume : Resume) (fault : RunFault) :
      Admits (some (.exec resume (.failed fault))) (.report fault)

/-- Every entry is admitted by the one before it. -/
def Orderly : List Call → Prop
  | [] => True
  | call :: older => Admits older.head? call ∧ Orderly older

theorem Orderly.of_append {newer older : List Call} (orderly : Orderly (newer ++ older)) :
    Orderly older := by
  induction newer with
  | nil => exact orderly
  | cons call rest ih => exact ih orderly.2

/-- What holds of an entry, and of every entry but a reset that can follow, holds until a reset. -/
theorem Orderly.kept {P : Call → Prop} {between older : List Call} {call : Call}
    (orderly : Orderly (between ++ call :: older)) (holds : P call) (same : .reset ∉ between)
    (follows : ∀ newest next, P newest → Admits (some newest) next → next ≠ .reset → P next) :
    ∃ newest, (between ++ call :: older).head? = some newest ∧ P newest := by
  induction between with
  | nil => exact ⟨call, rfl, holds⟩
  | cons next between ih =>
      simp only [List.mem_cons, not_or] at same
      obtain ⟨admitted, before⟩ := orderly
      obtain ⟨newest, front, still⟩ := ih before same.2
      change Admits (between ++ call :: older).head? next at admitted
      rw [front] at admitted
      exact ⟨next, rfl, follows newest next still admitted (Ne.symm same.1)⟩

/-- The entry ends its run. -/
inductive Ends : Call → Prop where
  | ran {resume : Resume} {outcome : Outcome} (final : outcome.isFinal = true) :
      Ends (.exec resume outcome)
  | stopped : Ends .stop
  | reported (fault : RunFault) : Ends (.report fault)

/-- Nothing more is entered for the run. -/
inductive Closes : Call → Prop where
  | done (resume : Resume) : Closes (.exec resume .done)
  | stopped : Closes .stop
  | reported (fault : RunFault) : Closes (.report fault)

/-- After a batch that has ended its run the next batch belongs to another run. -/
theorem Orderly.exec_after_end {between older : List Call} {call : Call} {resume : Resume}
    {outcome : Outcome} (ends : Ends call)
    (orderly : Orderly (.exec resume outcome :: (between ++ call :: older))) : .reset ∈ between := by
  refine Decidable.byContradiction fun same => ?_
  obtain ⟨admitted, before⟩ := orderly
  have follows (newest call : Call) (ends : Ends newest) (admitted : Admits (some newest) call)
      (other : call ≠ .reset) : Ends call := by
    cases admitted with
    | reset => exact absurd rfl other
    | stop | stopFailed => exact .stopped
    | report => exact .reported _
    | exec going =>
        cases going with
        | begun => cases ends
        | ran more =>
            cases ends with
            | ran final =>
                rw [more] at final
                cases final
  obtain ⟨newest, front, still⟩ := before.kept ends same follows
  rw [front] at admitted
  cases admitted with
  | exec going =>
      cases going with
      | begun => cases still
      | ran more =>
          cases still with
          | ran final =>
              rw [more] at final
              cases final

/-- Once a run is done or stopped, or its fault is reported, nothing is entered but the reset of the next
    one. -/
theorem Orderly.reset_after_close {between older : List Call} {call ending : Call} (closes : Closes ending)
    (other : call ≠ .reset) (orderly : Orderly (call :: (between ++ ending :: older))) :
    .reset ∈ between := by
  refine Decidable.byContradiction fun same => ?_
  obtain ⟨admitted, before⟩ := orderly
  have last (newest next : Call) (closes : Closes newest) (admitted : Admits (some newest) next) :
      next = .reset := by
    cases admitted with
    | reset => rfl
    | stopFailed | report => cases closes
    | exec going | stop going =>
        cases going with
        | begun => cases closes
        | ran more =>
            cases closes with
            | done => cases more
  obtain ⟨newest, front, still⟩ := before.kept closes same
    fun newest next closes admitted other => absurd (last newest next closes admitted) other
  rw [front] at admitted
  exact other (last newest call still admitted)

/-- A fault is reported right after the batch that failed with it, so it is reported once. -/
theorem Orderly.report_after_failure {older : List Call} {fault : RunFault}
    (orderly : Orderly (.report fault :: older)) :
    ∃ resume before, older = .exec resume (.failed fault) :: before := by
  cases older with
  | nil => cases orderly.1
  | cons newest before =>
      cases orderly.1 with
      | report resume => exact ⟨resume, before, rfl⟩

end Call

end PocketBasic
