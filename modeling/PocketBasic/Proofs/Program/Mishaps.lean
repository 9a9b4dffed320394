import PocketBasic.Proofs.Dialog.Kinds
import PocketBasic.Proofs.Program.Steps
import PocketBasic.Proofs.Program.Typing
import PocketBasic.Proofs.Store.Typed

/-! # What a program can fail of

A program whose types agree stores nothing of a wrong type. It fails of what it says itself, of arrays and
files that are not as it takes them to be, and of a string where the cursor needs a number; never of
answers that fit their fields.
-/

namespace PocketBasic

/-- Why an action fails in a world. -/
inductive Mishap (w : World) : Action → String → Prop where
  | raised (message : String) : Mishap w (.fail message) message
  | redimensioned {name : String} {dims : Dimensions} {a : ArrayVar}
      (bound : w.store.arrays.find? name = some a) :
      Mishap w (.dim name dims) ("array " ++ name ++ " is already dimensioned")
  | alreadyOpen {name other : String} (opened : w.openFile = some other) :
      Mishap w (.openFile name) ("file " ++ other ++ " is already open")
  | notOpen (closed : w.openFile = none) : Mishap w .closeFile "no file is open"
  | undimensioned {name : String} {subs : Subscripts} {value : Value} (element : subs ≠ [])
      (unbound : w.store.arrays.find? name = none) :
      Mishap w (.assign name subs value) (BindingError.unknown name).message
  | outOfRange {name : String} {subs : Subscripts} {value : Value} {a : ArrayVar}
      (element : subs ≠ []) (bound : w.store.arrays.find? name = some a)
      (outside : a.dimensions.offset? subs = none) :
      Mishap w (.assign name subs value) (BindingError.subscriptOutOfRange name).message
  | stringOperand {x y : Operand} {name : String} {s : DeviceString}
      (operand : x = .variable name ∨ y = .variable name)
      (text : w.store.get? name = some (.string s)) :
      Mishap w (.moveCursor x y) (BindingError.typeMismatch name).message

/-- Some action of the program fails in the world, and the fault tells on which line and why. -/
def Explained (entries : List (Origin × Action)) (w : World) (fault : RunFault) : Prop :=
  ∃ origin action, (origin, action) ∈ entries ∧ fault.span = origin.span ∧
    Mishap w action fault.message

namespace World

variable {w : World}

theorem operandValue_error {x : Operand} {message : String} (refused : w.operandValue x = .error message) :
    ∃ name s, x = .variable name ∧ w.store.get? name = some (.string s) ∧
      message = (BindingError.typeMismatch name).message := by
  unfold operandValue at refused
  split at refused
  · cases refused
  · split at refused <;> cases refused
    rename_i name _ s text
    exact ⟨name, s, rfl, text, rfl⟩

theorem type_answerValue {answer : Answer} {value : Value} {type : ValueType}
    (fits : answer.Fits type.fieldKind) (valued : answerValue? answer = some value) :
    value.type = type := by
  cases type <;> cases answer <;> first
    | exact fits.elim
    | (cases valued; rfl)

/-- Answers that fit fields that suit their variables are all stored. -/
theorem storeAnswers_fitting {store : Store} {fields : List FieldKind} {values : List Answer}
    {targets : List (Option String)} (typed : store.Typed)
    (suits : List.Forall₂ FieldKind.Suits fields targets)
    (fits : List.Forall₂ (fun kind value => value.Fits kind) fields values) :
    (storeAnswers store values targets).1 = none ∧ (storeAnswers store values targets).2.Typed := by
  induction suits generalizing store values with
  | nil =>
      cases fits
      exact ⟨rfl, typed⟩
  | @cons kind target _ _ suit _ ih =>
      obtain ⟨value, others, fit, rest, rfl⟩ := List.forall₂_cons_left_iff.mp fits
      unfold storeAnswers
      split
      · rename_i stored name valued
        obtain ⟨later, assigned, stays⟩ :=
          typed.assign (type_answerValue (suit name rfl ▸ fit) valued)
        rw [assigned]
        exact ih stays rest
      · exact ih typed rest

end World

/-- The job does only what the program says, and waits for no answers. -/
def Job.Settled (entries : List (Origin × Action)) : Job → Prop
  | .block rest => Instruction.actionsOf rest ⊆ entries
  | .passes _ body => Instruction.actionsOf body ⊆ entries
  | .ticks _ | .awaitKey => True
  | .awaitAnswers _ _ _ => False

/-- No job waits for answers. -/
abbrev Settled (entries : List (Origin × Action)) (jobs : List Job) : Prop :=
  ∀ job ∈ jobs, job.Settled entries

/-- The job on top waits for the answers to a request. -/
def Asking (entries : List (Origin × Action)) (request : Request) (jobs : List Job) : Prop :=
  ∃ origin targets rest, jobs = .awaitAnswers origin request targets :: rest ∧
    List.Forall₂ FieldKind.Suits request.fields targets ∧ Settled entries rest

/-- What is left of a program that waits, or has used up its ticks. -/
def Left (entries : List (Origin × Action)) (jobs : List Job) : Outcome → Prop
  | .input request => Asking entries request jobs
  | _ => Settled entries jobs

namespace Step

/-- The step leaves a typed store and a program that can go on, or it fails of a mishap. -/
def Safe (entries : List (Origin × Action)) (result : Step × World) : Prop :=
  result.2.store.Typed ∧
    match result.1 with
    | .tick jobs => Settled entries jobs
    | .wait outcome jobs => Left entries jobs outcome ∧ ∀ fault, outcome ≠ .failed fault
    | .fail fault => Explained entries result.2 fault
    | .done => True

variable {entries : List (Origin × Action)} {w : World} {jobs : List Job}

theorem safe_enterLoop (typed : w.store.Typed) {body : List Instruction} (left : Nat)
    (inside : Instruction.actionsOf body ⊆ entries) (settled : Settled entries jobs) :
    Safe entries (enterLoop left body jobs, w) := by
  refine ⟨typed, ?_⟩
  cases left with
  | zero => exact settled
  | succ left => exact List.forall_mem_cons.mpr ⟨inside, List.forall_mem_cons.mpr ⟨inside, settled⟩⟩

theorem safe_ofAction (typed : w.store.Typed) {origin : Origin} {action : Action}
    (member : (origin, action) ∈ entries) (types : action.IsTyped) (settled : Settled entries jobs) :
    Safe entries (ofAction w origin jobs action) := by
  have explained {message : String} (mishap : Mishap w action message) :
      Safe entries (.fail (origin.fault message), w) :=
    ⟨typed, origin, action, member, rfl, mishap⟩
  cases action with
  | clearScreen | fill | clear | invert => exact ⟨typed, settled⟩
  | moveCursor x y =>
      simp only [ofAction]
      split
      · rename_i refused
        obtain ⟨name, s, rfl, text, rfl⟩ := World.operandValue_error refused
        exact explained (.stringOperand (.inl rfl) text)
      · split
        · rename_i refused
          obtain ⟨name, s, rfl, text, rfl⟩ := World.operandValue_error refused
          exact explained (.stringOperand (.inr rfl) text)
        · exact ⟨typed, settled⟩
  | work n =>
      refine ⟨typed, ?_⟩
      dsimp only [ofAction]
      split
      · exact settled
      · exact List.forall_mem_cons.mpr ⟨trivial, settled⟩
  | sleep | inkey =>
      exact ⟨typed, List.forall_mem_cons.mpr ⟨trivial, settled⟩, fun _ other => by cases other⟩
  | input request targets =>
      exact ⟨typed, ⟨origin, targets, jobs, rfl, types, settled⟩, fun _ other => by cases other⟩
  | assign name subs value =>
      simp only [ofAction]
      cases subs with
      | nil =>
          obtain ⟨later, assigned, stays⟩ := typed.assign types
          simp only [List.isEmpty_nil, if_true, assigned]
          exact ⟨stays, settled⟩
      | cons sub rest =>
          simp only [List.isEmpty_cons, Bool.false_eq_true, if_false]
          cases stored : w.store.setElement name (sub :: rest) value with
          | ok later => exact ⟨typed.setElement stored, settled⟩
          | error error =>
              have element : sub :: rest ≠ [] := List.cons_ne_nil sub rest
              rcases Store.setElement_error types stored with ⟨unbound, rfl⟩ | ⟨a, bound, outside, rfl⟩
              · exact explained (.undimensioned element unbound)
              · exact explained (.outOfRange element bound outside)
  | dim name dims =>
      simp only [ofAction]
      split
      · rename_i bound
        exact ⟨typed.dim bound, settled⟩
      · rename_i refused
        obtain ⟨a, bound⟩ := Store.dim_already_iff.mp refused
        exact explained (.redimensioned bound)
      · exact ⟨typed, settled⟩
  | openFile name =>
      simp only [ofAction]
      split
      · rename_i opened
        exact explained (.alreadyOpen opened)
      · exact ⟨typed, settled⟩
  | closeFile =>
      simp only [ofAction]
      split
      · exact ⟨typed, settled⟩
      · rename_i closed
        exact explained (.notOpen closed)
  | fail message => exact explained (.raised message)
  | finish => exact ⟨typed, trivial⟩

theorem safe_ofAnswers (typed : w.store.Typed) {origin : Origin} {request : Request}
    {targets : List (Option String)} {values : List Answer}
    (suits : List.Forall₂ FieldKind.Suits request.fields targets)
    (fits : List.Forall₂ (fun kind value => value.Fits kind) request.fields values)
    (settled : Settled entries jobs) :
    Safe entries (ofAnswers w origin request targets jobs (.answers values)) := by
  obtain ⟨none, stays⟩ := World.storeAnswers_fitting typed suits fits
  simp only [ofAnswers, if_pos fits.length_eq.symm, none]
  exact ⟨stays, settled⟩

theorem safe_next (sound : Sound entries) (typed : w.store.Typed) (resume : Resume)
    (settled : Settled entries jobs) : Safe entries (next w resume jobs) := by
  refine next_cases (motive := fun jobs result => Settled entries jobs → Safe entries result) w resume
    jobs ?done ?through ?acted ?entered ?passed ?worked ?ticked ?keyed ?keyless ?answered settled
  case done => exact fun _ => ⟨typed, trivial⟩
  case through | worked => exact fun jobs ih settled => ih (List.forall_mem_cons.mp settled).2
  case acted =>
    intro origin action rest jobs settled
    obtain ⟨inside, settled⟩ := List.forall_mem_cons.mp settled
    have member : (origin, action) ∈ entries := inside List.mem_cons_self
    have later : Instruction.actionsOf rest ⊆ entries := fun entry further =>
      inside (List.mem_cons_of_mem _ further)
    exact safe_ofAction typed member (sound.typed _ member) (List.forall_mem_cons.mpr ⟨later, settled⟩)
  case entered =>
    intro origin count body rest jobs settled
    obtain ⟨inside, settled⟩ := List.forall_mem_cons.mp settled
    obtain ⟨within, further⟩ := List.append_subset.mp inside
    exact safe_enterLoop typed count within (List.forall_mem_cons.mpr ⟨further, settled⟩)
  case passed =>
    intro left body jobs settled
    obtain ⟨inside, settled⟩ := List.forall_mem_cons.mp settled
    exact safe_enterLoop typed left inside settled
  case ticked =>
    intro left jobs settled
    exact ⟨typed, List.forall_mem_cons.mpr ⟨trivial, (List.forall_mem_cons.mp settled).2⟩⟩
  case keyed => exact fun jobs _ _ settled => ⟨typed, (List.forall_mem_cons.mp settled).2⟩
  case keyless => exact fun jobs _ settled => ⟨typed, settled, fun _ other => by cases other⟩
  case answered => exact fun _ _ _ _ settled => (List.forall_mem_cons.mp settled).1.elim

end Step

end PocketBasic
