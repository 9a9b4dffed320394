import PocketBasic.Handset.Bitmap

/-! # The handset

The screen, keyboard buffer and caret of the pocket computer. Drawing takes the caret off the
screen first; every write widens the dirty area, which the simulator takes to know what to copy.
-/

namespace PocketBasic

/-- The state of a handset. -/
structure Handset where
  bitmap : Bitmap
  /-- The smallest area that covers every write since the area was last taken. -/
  dirty : Option PixelRect
  /-- Keys that wait for the program, the first in front. -/
  buffer : List UInt8
  /-- Keys that are held down. -/
  pressed : List UInt8
  cursorX : Nat
  cursorY : Nat
  /-- The caret is inverted on the screen now. -/
  caretShown : Bool

namespace Handset

/-- Number of keys that wait at most. -/
def bufferSize : Nat := 16

/-- A handset that was never switched on. -/
def blank : Handset :=
  { bitmap := .blank, dirty := none, buffer := [], pressed := [], cursorX := 0, cursorY := 0,
    caretShown := false }

/-- Widens the dirty area; an empty area adds nothing. -/
def markDirty (h : Handset) (area : PixelRect) : Handset :=
  if area.isEmpty then h
  else { h with dirty := some (match h.dirty with | some d => d.union area | none => area) }

/-- Writes an area pixel by pixel. -/
def write (h : Handset) (area : PixelRect) (f : Bool → Bool) : Handset :=
  { h with bitmap := h.bitmap.mapArea area fun _ _ lit => f lit }.markDirty area

/-- Where the caret stands: under the cursor position. -/
def caretRect (h : Handset) : PixelRect :=
  .ofSize h.cursorX (h.cursorY + 10) 6 2

/-- Takes the caret off the screen. -/
def hideCaret (h : Handset) : Handset :=
  if h.caretShown then { h.write h.caretRect (!·) with caretShown := false } else h

/-- Turns the caret on or off. -/
def blink (h : Handset) : Handset :=
  { h.write h.caretRect (!·) with caretShown := !h.caretShown }

def clearScreen (h : Handset) : Handset :=
  { h with caretShown := false, bitmap := .blank }.markDirty .fullScreen

def fill (h : Handset) (area : PixelRect) : Handset :=
  h.hideCaret.write area fun _ => true

def clear (h : Handset) (area : PixelRect) : Handset :=
  h.hideCaret.write area fun _ => false

def invert (h : Handset) (area : PixelRect) : Handset :=
  h.hideCaret.write area (!·)

/-- Moves the cursor, which stays on the screen. -/
def setCursor (h : Handset) (x y : Nat) : Handset :=
  { h.hideCaret with cursorX := min x (screenWidth - 1), cursorY := min y (screenHeight - 1) }

/-- Switches the handset off and on. -/
def restart (_ : Handset) : Handset :=
  blank.markDirty .fullScreen

/-- Takes the key that has waited longest; the caret goes off with it. -/
def takeKey (h : Handset) : Option UInt8 × Handset :=
  match h.buffer with
  | [] => (none, h)
  | key :: rest => (some key, { h with buffer := rest }.hideCaret)

/-- Presses a key. When the buffer is full the program will not see it. -/
def keyDown (h : Handset) (key : UInt8) : Handset :=
  { h with
    pressed := if h.pressed.contains key then h.pressed else h.pressed ++ [key]
    buffer := if h.buffer.length < bufferSize then h.buffer ++ [key] else h.buffer }

def keyUp (h : Handset) (key : UInt8) : Handset :=
  { h with pressed := h.pressed.filter (· ≠ key) }

def isPressed (h : Handset) (key : UInt8) : Bool :=
  h.pressed.contains key

/-- Takes the dirty area. -/
def takeDirty (h : Handset) : Option PixelRect × Handset :=
  (h.dirty, { h with dirty := none })

def pixel (h : Handset) (x y : Nat) : Bool :=
  h.bitmap.pixel x y

end Handset

end PocketBasic
