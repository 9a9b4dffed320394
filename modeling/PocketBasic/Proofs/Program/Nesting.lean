import PocketBasic.Proofs.Program.Typing

/-! # Nested loops

The lines of a source text are statements, each with the line it comes from. Counting the heads and the feet
of loops tells whether they match; a grammar tells which program they are. A beginning of the lines with all
its feet matched leaves some loops open, and the draft of a program holds what stands before each of their
heads, and the body of the innermost.
-/

namespace PocketBasic

mutual

/-- The lines of an instruction in the order of the text: the head of a loop and then its body. -/
def Instruction.listing : Instruction → List (Origin × Statement)
  | .act origin action => [(origin, .act action)]
  | .loop origin count body => (origin, .head count) :: Instruction.listingOf body

def Instruction.listingOf : List Instruction → List (Origin × Statement)
  | [] => []
  | i :: rest => i.listing ++ Instruction.listingOf rest

end

namespace Source

variable {said inner : List (Origin × Statement)} {line : Origin × Statement}
  {program body : List Instruction} {d : Draft}

/-! ## Counting -/

def heads (said : List (Origin × Statement)) : Nat :=
  said.countP fun line => line.2 matches .head _

def feet (said : List (Origin × Statement)) : Nat :=
  said.countP fun line => line.2 matches .foot

/-- No foot comes before its head. -/
def Headed (said : List (Origin × Statement)) : Prop :=
  ∀ before, before <+: said → feet before ≤ heads before

/-- Every head has a foot, and every foot has a head before it. -/
def Balanced (said : List (Origin × Statement)) : Prop :=
  Headed said ∧ feet said = heads said

theorem headed_nil : Headed [] := by
  intro before within
  rw [List.prefix_nil.mp within]
  exact Nat.le_refl _

theorem headed_concat :
    Headed (said ++ [line]) ↔ Headed said ∧ feet (said ++ [line]) ≤ heads (said ++ [line]) := by
  constructor
  · intro headed
    exact ⟨fun before within => headed before (within.trans (List.prefix_append _ _)),
      headed _ (List.prefix_refl _)⟩
  · rintro ⟨headed, whole⟩ before within
    rcases List.prefix_concat_iff.mp within with rfl | within
    · exact whole
    · exact headed before within

theorem Headed.left {after : List (Origin × Statement)} (headed : Headed (said ++ after)) : Headed said :=
  fun before within => headed before (within.trans (List.prefix_append _ _))

/-! ## The grammar -/

/-- The lines are those of a program, one foot behind the body of every loop. -/
inductive Nested : List (Origin × Statement) → List Instruction → Prop
  | nil : Nested [] []
  | act {origin action rest program} :
      Nested rest program → Nested ((origin, .act action) :: rest) (.act origin action :: program)
  | loop {head foot count inner rest body program} : Nested inner body → Nested rest program →
      Nested ((head, .head count) :: inner ++ (foot, .foot) :: rest) (.loop head count body :: program)

namespace Nested

theorem append {after : List (Origin × Statement)} {more : List Instruction} (nested : Nested said program)
    (others : Nested after more) : Nested (said ++ after) (program ++ more) := by
  induction nested with
  | nil => exact others
  | act _ ih => exact .act ih
  | loop inside _ _ ih =>
      rw [List.append_assoc]
      exact .loop inside ih

theorem feet_eq (nested : Nested said program) : feet said = heads said := by
  induction nested with
  | nil => rfl
  | act _ ih => simpa [feet, heads] using ih
  | loop _ _ inside ih =>
      simp only [feet, heads, List.cons_append, List.countP_cons, List.countP_append] at inside ih ⊢
      simp
      omega

theorem mem_of_mem_actionsOf (nested : Nested said program) {entry : Origin × Action}
    (member : entry ∈ Instruction.actionsOf program) : (entry.1, .act entry.2) ∈ said := by
  induction nested with
  | nil => cases member
  | act _ ih =>
      rcases List.mem_cons.mp member with rfl | later
      · exact List.mem_cons_self
      · exact List.mem_cons_of_mem _ (ih later)
  | loop _ _ inside behind =>
      rcases List.mem_append.mp member with within | later
      · exact List.mem_cons_of_mem _ (List.mem_append_left _ (inside within))
      · exact List.mem_cons_of_mem _ (List.mem_append_right _ (List.mem_cons_of_mem _ (behind later)))

/-- Without the feet the lines are those of the program, in their order. -/
theorem listing_eq (nested : Nested said program) :
    Instruction.listingOf program = said.filter fun line => !(line.2 matches .foot) := by
  induction nested with
  | nil => rfl
  | act _ ih => simp [Instruction.listingOf, Instruction.listing, ih]
  | loop _ _ inside ih => simp [Instruction.listingOf, Instruction.listing, inside, ih]

end Nested

/-! ## Drafts -/

/-- The draft is what the lines come to: every open loop with what stands before its head, and
    behind the innermost head a body without open loops. -/
inductive Draft.Holds : Draft → List (Origin × Statement) → Prop
  | closed {current said} : Nested said current.reverse → Holds ⟨[], current⟩ said
  | within {loop loops current outer inner} : Holds ⟨loops, loop.before⟩ outer →
      Nested inner current.reverse →
      Holds ⟨loop :: loops, current⟩ (outer ++ (loop.origin, .head loop.count) :: inner)

namespace Draft.Holds

theorem heads_eq (holds : d.Holds said) : heads said = feet said + d.loops.length := by
  induction holds with
  | closed nested => exact nested.feet_eq.symm
  | within _ nested ih =>
      have inside := nested.feet_eq
      simp only [feet, heads, List.countP_append, List.countP_cons, List.length_cons] at ih inside ⊢
      simp
      omega

theorem append {loops : List OpenLoop} {current : List Instruction} (holds : Holds ⟨loops, current⟩ said)
    (nested : Nested inner body) : Holds ⟨loops, body.reverse ++ current⟩ (said ++ inner) := by
  cases holds with
  | closed whole => exact .closed (by simpa using whole.append nested)
  | within outer inside =>
      rw [List.append_assoc, List.cons_append]
      exact .within outer (by simpa using inside.append nested)

theorem act {origin : Origin} {action : Action} (holds : d.Holds said) :
    Holds ⟨d.loops, .act origin action :: d.current⟩ (said ++ [(origin, .act action)]) :=
  holds.append (.act .nil)

theorem head {origin : Origin} {count : Nat} (holds : d.Holds said) :
    Holds ⟨⟨origin, count, d.current⟩ :: d.loops, []⟩ (said ++ [(origin, .head count)]) :=
  .within holds .nil

theorem foot {loop : OpenLoop} {loops : List OpenLoop} {current : List Instruction} {origin : Origin}
    (holds : Holds ⟨loop :: loops, current⟩ said) :
    Holds ⟨loops, .loop loop.origin loop.count current.reverse :: loop.before⟩
      (said ++ [(origin, .foot)]) := by
  cases holds with
  | within outer inside =>
      rw [List.append_assoc]
      exact outer.append (.loop inside .nil)

/-- Only a foot without a head is refused. -/
theorem add (holds : d.Holds said) (line : Origin × Statement) :
    (∃ later, d.add line.1 line.2 = .ok later ∧ later.Holds (said ++ [line])) ∨
      feet said = heads said ∧ line.2 = .foot ∧ d.add line.1 line.2 = .error .nextWithoutRepeat := by
  obtain ⟨origin, statement⟩ := line
  obtain ⟨loops, current⟩ := d
  cases statement with
  | act action => exact .inl ⟨_, rfl, holds.act⟩
  | head count => exact .inl ⟨_, rfl, holds.head⟩
  | foot =>
      cases loops with
      | nil => exact .inr ⟨holds.heads_eq.symm, rfl, rfl⟩
      | cons loop loops => exact .inl ⟨_, rfl, holds.foot⟩

end Draft.Holds

end Source

end PocketBasic
