import PocketBasic.Engine.Conversion
import PocketBasic.Proofs.Store.Traced

/-! # Control characters in an engine

A rig that holds only traced texts gives out only traced ones: in what it asks for, in what it complains of, in
its variables and in what it makes of a typed text. So whatever is converted is traced if the typed text is.
-/

namespace PocketBasic

variable {given : List Char}

def FieldKind.Traced (given : List Char) : FieldKind → Prop
  | .func name param => Text.Traced given name.toList ∧ Text.Traced given param.toList
  | .integer | .real | .string => True

structure Request.Traced (given : List Char) (r : Request) : Prop where
  prompt : ∀ text, r.prompt = some text → Text.Traced given text.toList
  fields : ∀ kind ∈ r.fields, kind.Traced given

/-- The text of a function body is never shown. -/
def Answer.Traced (given : List Char) : Answer → Prop
  | .string s => s.Traced given
  | .integer _ | .real _ | .func _ => True

def RunFault.Traced (given : List Char) (fault : RunFault) : Prop := Text.Traced given fault.message.toList

def Outcome.Traced (given : List Char) : Outcome → Prop
  | .input request => request.Traced given
  | .failed fault => fault.Traced given
  | .more | .sleep _ | .key | .done => True

def Resume.Traced (given : List Char) : Resume → Prop
  | .answers values => ∀ value ∈ values, value.Traced given
  | .nothing | .key _ => True

theorem EncodingError.traced_message (e : EncodingError) : Text.Traced given e.message.toList := by
  cases e with
  | invalidUtf16 => exact Text.traced_of_plain (by decide)
  | invalidChar c =>
      have digits : Text.Traced given (hex c).toList := by
        rw [hex, String.toList_ofList, Text.traced_append]
        exact ⟨Text.traced_replicate _ rfl, (Text.traced_toDigits 16 c).map Text.toUpper_of_isControl⟩
      exact digits.behind (by decide)

def FieldError.Traced (given : List Char) (e : FieldError) : Prop := Text.Traced given e.message.toList

theorem FieldError.traced_compile {column : Nat} {text : String} (traced : Text.Traced given text.toList) :
    (compile column text).Traced given :=
  (((Text.traced_toString_nat column).behind (by decide)).before (by decide)).append traced

theorem FieldError.traced_stringTooLong (length : Nat) : (stringTooLong length).Traced given :=
  ((Text.traced_toString_nat length).behind (by decide)).before (by decide)

variable {σ : Type} [Engine σ]

section Rig

variable [Device σ]

/-- Rigs that hold only traced texts stay such rigs, and give out only traced texts, as long as they are given
    no others. -/
structure Rig.Traces (given : List Char) (Holds : σ → Prop) : Prop where
  exec : ∀ (rig : σ) resume budget, Holds rig → resume.Traced given →
    (Engine.exec rig resume budget).1.Traced given ∧ Holds (Engine.exec rig resume budget).2
  stop : ∀ rig : σ, Holds rig →
    (∀ text, (Engine.stop rig).1 = some text → Text.Traced given text.toList) ∧ Holds (Engine.stop rig).2
  reset : ∀ rig : σ, Holds rig → Holds (Engine.reset rig)
  compile : ∀ (rig : σ) text, Holds rig → Text.Traced given text →
    (∀ d ∈ (Engine.compile rig (Text.toUnits text)).1.diagnostics, Text.Traced given d.message.toList) ∧
      Holds (Engine.compile rig (Text.toUnits text)).2
  encode : ∀ (rig : σ) text s, Text.Traced given text →
    Engine.encode rig (Text.toUnits text) = .ok s → s.Traced given
  release : ∀ (rig : σ) value, Holds rig → Holds (Engine.release rig value)
  store : ∀ rig : σ, Holds rig → (Engine.store rig).Traced given
  withStore : ∀ (rig : σ) store, Holds rig → store.Traced given → Holds (Engine.withStore rig store)
  restart : ∀ rig : σ, Holds rig → Holds (Device.restart rig)
  takeKey : ∀ rig : σ, Holds rig → Holds (Device.takeKey rig).2
  keyDown : ∀ (rig : σ) key, Holds rig → Holds (Device.keyDown rig key)
  keyUp : ∀ (rig : σ) key, Holds rig → Holds (Device.keyUp rig key)
  blink : ∀ rig : σ, Holds rig → Holds (Device.blink rig)
  hideCaret : ∀ rig : σ, Holds rig → Holds (Device.hideCaret rig)
  takeDirty : ∀ rig : σ, Holds rig → Holds (Device.takeDirty rig).2

end Rig

/-! ## Conversions -/

theorem Compilation.mem_of_firstError {c : Compilation} {d : Diagnostic} (first : c.firstError = some d) :
    d ∈ c.diagnostics := by
  have among (all : List Diagnostic) (start : Option Diagnostic) (found : all.foldl leftmost start = some d) :
      start = some d ∨ d ∈ all := by
    induction all generalizing start with
    | nil => exact .inl found
    | cons other rest ih =>
        rcases ih _ found with new | later
        · unfold leftmost at new
          split at new
          · cases new
            exact .inr List.mem_cons_self
          · split at new
            · cases new
              exact .inr List.mem_cons_self
            · exact .inl new
        · exact .inr (List.mem_cons_of_mem _ later)
  rcases among _ _ first with none | member
  · cases none
  · exact (List.mem_filter.mp member).1

namespace Conversion

variable [Device σ] {Holds : σ → Prop} {engine : σ} {text : List Char}

/-- What a conversion gives, and the rig it leaves. -/
structure Sound {α : Type} (given : List Char) (Holds : σ → Prop) (good : α → Prop)
    (result : Except FieldError α × σ) : Prop where
  meets : Meets (FieldError.Traced given) good result.1
  holds : Holds result.2

theorem meets_integer (text : List Char) : Meets (FieldError.Traced given) (fun _ => True) (integer text) := by
  unfold integer
  split
  · split
    · trivial
    · exact Text.traced_of_plain (by decide)
  all_goals exact Text.traced_of_plain (by decide)

theorem meets_real (text : List Char) : Meets (FieldError.Traced given) (fun _ => True) (real text) := by
  unfold real
  split
  · exact Text.traced_of_plain (by decide)
  · split
    · exact Text.traced_of_plain (by decide)
    · split
      · exact Text.traced_of_plain (by decide)
      · trivial

variable (traces : Rig.Traces given Holds) (holds : Holds engine) (traced : Text.Traced given text)

include traces holds traced

theorem sound_string : Sound given Holds (DeviceString.Traced given) (string engine text) := by
  unfold string
  split
  · rename_i e _
    exact ⟨e.traced_message, holds⟩
  · rename_i s encoded
    split
    · exact ⟨FieldError.traced_stringTooLong _, traces.release _ _ holds⟩
    · exact ⟨traces.encode _ _ _ traced encoded, holds⟩

theorem sound_body : Sound given Holds (fun _ => True) (body engine text) := by
  obtain ⟨messages, compiled⟩ := traces.compile engine text holds traced
  unfold body
  dsimp only
  split
  · rename_i first
    exact ⟨FieldError.traced_compile (messages _ (Compilation.mem_of_firstError first)),
      traces.release _ _ compiled⟩
  · exact ⟨trivial, compiled⟩

theorem sound_answer (kind : FieldKind) : Sound given Holds (Answer.Traced given) (answer engine text kind) := by
  cases kind with
  | integer => exact ⟨(meets_integer text).map fun _ _ => trivial, holds⟩
  | real => exact ⟨(meets_real text).map fun _ _ => trivial, holds⟩
  | string =>
      obtain ⟨result, rig⟩ := sound_string traces holds traced
      exact ⟨result.map fun _ traced => traced, rig⟩
  | func =>
      obtain ⟨result, rig⟩ := sound_body traces holds traced
      exact ⟨result.map fun _ _ => trivial, rig⟩

theorem sound_value (type : ValueType) : Sound given Holds (Value.Traced given) (value engine text type) := by
  cases type with
  | integer => exact ⟨(meets_integer text).map fun _ _ => trivial, holds⟩
  | real => exact ⟨(meets_real text).map fun _ _ => trivial, holds⟩
  | string =>
      obtain ⟨result, rig⟩ := sound_string traces holds traced
      exact ⟨result.map fun _ traced => traced, rig⟩

end Conversion

end PocketBasic
