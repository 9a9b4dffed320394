import PocketBasic.Proofs.Simulator.Along
import PocketBasic.Proofs.Simulator.Host
import PocketBasic.Proofs.Simulator.Window

/-! # Operations of a window, seen from the rig

A window reaches its rig through the scheduler, the dialog and the inspector, and takes the dirty area. What
moves along a preorder with all of these moves along it with every act and every transition, also with those
that a host makes.
-/

namespace PocketBasic

variable {σ α : Type} [Engine σ] [Device σ] {f : σ → α} {R : α → α → Prop}

namespace Rig.Along

variable (along : Rig.Along f R) (taken : ∀ rig, R (f rig) (f (Device.takeDirty rig).2)) (w : Window σ)
  (loop : EventLoop SimEvent)

include along

theorem closeDialog : R (f w.rig) (f w.closeDialog.rig) := by
  unfold Window.closeDialog
  split
  · exact along.of_eq (along.keeps.cancelDialog _ w.rig)
  · exact along.refl _

theorem dialogEvent (input : Input) (bounds : CellRect) :
    R (f w.rig) (f (w.dialogEvent input bounds loop).2.1.rig) := by
  unfold Window.dialogEvent
  split
  · exact along.refl _
  · rename_i d _
    have edited := along.of_eq (along.keeps.dialog d w.rig input (Window.dialogRect bounds d))
    split
    all_goals
      rename_i handled
      rw [handled] at edited
    · exact edited
    · rename_i values _ rig
      exact along.trans edited
        (along.provide (({ w with dialog := none, rig } : Window σ).bench loop) values)
    · exact edited

include taken

theorem event (event : SimEvent) : R (f w.rig) (f (w.handle event loop).2.1.rig) := by
  have rig := congrArg Bench.rig (w.bench_handle event loop)
  change (w.handle event loop).2.1.rig = ((w.bench loop).handle event).rig at rig
  rw [rig]
  by_cases tick : event = .repaintTick
  · subst tick
    rw [Bench.handle, Bench.rig_repaintTick]
    split
    · exact taken w.rig
    · exact along.refl _
  · exact along.handle (w.bench loop) tick

theorem perform (a : Window.Act) : R (f w.rig) (f (w.perform loop a).2.1.rig) := by
  refine w.perform_cases loop (motive := fun result => R (f w.rig) (f result.2.1.rig)) a
    ?event ?dialog ?edited ?down ?up ?pasted ?ignored
  case event => exact fun _ event => along.event taken w loop event
  case dialog => exact fun input bounds _ => along.dialogEvent w loop input bounds
  case edited =>
    exact fun input bounds _ =>
      along.of_eq (along.keeps.inspector w.panel w.rig input (w.layout bounds).panel)
  case down =>
    intro _ other code later settled
    rw [settled.rig]
    exact along.keyDownBench (w.bench loop) code
  case up =>
    intro _ other code later settled
    rw [settled.rig]
    exact along.keyUp w.rig code
  case pasted => exact fun _ text => along.refl _
  case ignored =>
    intro _ other later same
    rw [same.rig]
    exact along.refl _

theorem transition (t : Lifecycle.Transition) : R (f w.rig) (f (w.transition t loop).1.rig) := by
  have closed := along.closeDialog w
  obtain ⟨source, target, event⟩ := t
  cases target with
  | started =>
      cases source with
      | stopped => exact along.trans closed (along.start (w.closeDialog.bench loop))
      | started | paused => exact along.cont (w.bench loop)
  | paused => cases source <;> exact along.pause (w.bench loop)
  | stopped =>
      have stopped := along.trans closed (along.stopBench (w.closeDialog.bench loop))
      have copied (w : Window σ) : R (f w.rig) (f w.copyDirty.rig) := by
        unfold Window.copyDirty
        rw [Window.rig_copy]
        exact taken w.rig
      have last := copied (w.closeDialog.settle (w.closeDialog.bench loop).stop.2).1
      cases source <;> exact along.trans stopped last

theorem raise (h : Host σ) (event : Lifecycle.Event) : R (f h.window.rig) (f (h.raise event).window.rig) := by
  have moved (t : Lifecycle.Transition) : R (f h.window.rig) (f (h.moved t).window.rig) :=
    along.transition taken h.window h.loop t
  refine h.raise_cases (motive := fun next => R (f h.window.rig) (f next.window.rig)) event
    ?kept ?started ?paused ?continued ?stopped
  case kept => exact along.refl _
  all_goals exact fun _ => moved _

end Rig.Along

end PocketBasic
