import PocketBasic.Playback
import PocketBasic.Program.Computer
import PocketBasic.Proofs.Engine.Keeps

/-! # Devices with a key queue

A device promises no more than that `takeKey` hands out the key that has waited longest. What is
proved of keys needs the queue itself, so it is made visible here, for the handset and for the device
of a rehearsal alike. Which keys enter it is left to the device: the handset's queue is bounded.
-/

namespace PocketBasic

/-- The keys that wait for the program, the first in front, and what does not touch them. -/
class KeyQueue (σ : Type) [Engine σ] [Device σ] where
  waiting : σ → List UInt8
  takeKey_fst : ∀ rig : σ, (Device.takeKey rig).1 = (waiting rig).head?
  waiting_takeKey : ∀ rig : σ, waiting (Device.takeKey rig).2 = (waiting rig).tail
  waiting_keyUp : ∀ (rig : σ) (key : UInt8), waiting (Device.keyUp rig key) = waiting rig
  waiting_blink : ∀ rig : σ, waiting (Device.blink rig) = waiting rig
  waiting_takeDirty : ∀ rig : σ, waiting (Device.takeDirty rig).2 = waiting rig
  keeps : Engine.Keeps waiting

namespace Handset

@[simp] theorem buffer_markDirty (h : Handset) (area : PixelRect) :
    (h.markDirty area).buffer = h.buffer := by
  unfold markDirty
  split <;> rfl

@[simp] theorem buffer_write (h : Handset) (area : PixelRect) (f : Bool → Bool) :
    (h.write area f).buffer = h.buffer := by
  simp only [write, buffer_markDirty]

@[simp] theorem buffer_hideCaret (h : Handset) : h.hideCaret.buffer = h.buffer := by
  unfold hideCaret
  split
  · exact buffer_write h _ _
  · rfl

@[simp] theorem buffer_blink (h : Handset) : h.blink.buffer = h.buffer :=
  buffer_write h _ _

theorem takeKey_eq_head? (h : Handset) : h.takeKey.1 = h.buffer.head? := by
  unfold takeKey
  split
  · rename_i empty
    rw [empty]
    rfl
  · rename_i key rest waiting
    rw [waiting]
    rfl

theorem buffer_takeKey (h : Handset) : h.takeKey.2.buffer = h.buffer.tail := by
  unfold takeKey
  split
  · rename_i empty
    rw [empty]
    rfl
  · rename_i key rest waiting
    rw [waiting, buffer_hideCaret]
    rfl

end Handset

instance : KeyQueue Computer where
  waiting c := c.handset.buffer
  takeKey_fst c := c.handset.takeKey_eq_head?
  waiting_takeKey c := c.handset.buffer_takeKey
  waiting_keyUp _ _ := rfl
  waiting_blink c := c.handset.buffer_blink
  waiting_takeDirty _ := rfl
  keeps := ⟨fun _ _ => rfl, fun _ _ => rfl, fun _ _ => rfl⟩

namespace PlaybackDevice

theorem takeKey_eq_head? (d : PlaybackDevice) : d.takeKey.1 = d.keys.head? := by
  unfold takeKey
  split
  · rename_i empty
    rw [empty]
    rfl
  · rename_i key rest waiting
    rw [waiting]
    rfl

theorem keys_takeKey (d : PlaybackDevice) : d.takeKey.2.keys = d.keys.tail := by
  unfold takeKey
  split
  · rename_i empty
    rw [empty]
    rfl
  · rename_i key rest waiting
    rw [waiting]
    rfl

end PlaybackDevice

instance : KeyQueue Playback where
  waiting p := p.device.keys
  takeKey_fst p := p.device.takeKey_eq_head?
  waiting_takeKey p := p.device.keys_takeKey
  waiting_keyUp _ _ := rfl
  waiting_blink _ := rfl
  waiting_takeDirty _ := rfl
  keeps := ⟨fun _ _ => rfl, fun _ _ => rfl, fun _ _ => rfl⟩

end PocketBasic
