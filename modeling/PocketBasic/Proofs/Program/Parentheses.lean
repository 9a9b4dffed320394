import Mathlib.Data.List.Nodup
import PocketBasic.Program.Computer
import PocketBasic.Proofs.Engine.Traced

/-! # Parentheses of function bodies

A function body is checked from left to right, with the open parentheses on a stack. What the check says of a body
is what a grammar says of it: parentheses with a balanced text between them are partners, and every one without a
partner is reported once, and so is every character that no body has. The first error is the leftmost of them.
-/

namespace PocketBasic

namespace FunctionBody

/-- A character that some function body has. -/
def IsAllowed (c : Char) : Prop := c.isAlphanum = true ∨ c ∈ "() _.+-*/^<>=$".toList

/-- Every parenthesis has a partner. -/
inductive Balanced : List Char → Prop
  | nil : Balanced []
  | other {c : Char} {rest : List Char} : c ≠ '(' → c ≠ ')' → Balanced rest → Balanced (c :: rest)
  | pair {inner rest : List Char} : Balanced inner → Balanced rest → Balanced ('(' :: inner ++ ')' :: rest)

/-- The places of an open and a closing parenthesis that have a balanced text between them. -/
def Partners (s : List Char) (first second : Nat) : Prop :=
  ∃ before inner after, s = before ++ '(' :: inner ++ ')' :: after ∧ Balanced inner ∧
    first = before.length ∧ second = before.length + 1 + inner.length

/-- What is to be said about the character at a place. -/
inductive Fault (s : List Char) (place : Nat) : String → Prop
  | unexpected {c : Char} : s[place]? = some c → ¬IsAllowed c →
      Fault s place ("unexpected character '" ++ String.singleton c ++ "'")
  | unmatched : s[place]? = some ')' → (∀ first, ¬Partners s first place) → Fault s place "unmatched ')'"
  | unclosed : s[place]? = some '(' → (∀ second, ¬Partners s place second) → Fault s place "unclosed '('"

variable {s before after rest : List Char} {c : Char} {n place k : Nat} {opened : List Nat} {message : String}

theorem isAllowed_iff : IsAllowed c ↔ c = '(' ∨ c = ')' ∨ isPlain c = true := by
  have all : "() _.+-*/^<>=$".toList = '(' :: ')' :: signs := by decide
  rw [IsAllowed, all, isPlain, Bool.or_eq_true, List.contains_iff_mem, List.mem_cons, List.mem_cons]
  tauto

/-! ## Balanced texts -/

namespace Balanced

theorem append (first : Balanced before) (second : Balanced after) : Balanced (before ++ after) := by
  induction first with
  | nil => exact second
  | other opening closing _ ih => exact .other opening closing ih
  | pair inside _ _ ih =>
      rw [List.append_assoc]
      exact .pair inside ih

theorem enclosed (inside : Balanced s) : Balanced ('(' :: s ++ [')']) := .pair inside .nil

end Balanced

theorem Partners.around {second : Nat} (partners : Partners s k second) (before after : List Char) :
    Partners (before ++ s ++ after) (before.length + k) (before.length + second) := by
  obtain ⟨front, inner, back, rfl, inside, rfl, rfl⟩ := partners
  exact ⟨before ++ front, inner, back ++ after, by simp, inside, by simp, by simp; omega⟩

/-- In a balanced text every parenthesis has a partner. -/
theorem Balanced.partnered (balanced : Balanced s) (here : s[place]? = some c) (parenthesis : c = '(' ∨ c = ')') :
    ∃ other, Partners s place other ∨ Partners s other place := by
  induction balanced generalizing place with
  | nil => cases here
  | @other d rest opening closing _ ih =>
      cases place with
      | zero =>
          cases here
          exact absurd parenthesis (not_or.mpr ⟨opening, closing⟩)
      | succ place =>
          obtain ⟨other, partners⟩ := ih here
          refine ⟨other + 1, ?_⟩
          simpa [Nat.add_comm] using partners.imp (·.around [d] []) (·.around [d] [])
  | @pair inner rest inside _ ihInner ihRest =>
      have outer : Partners ('(' :: inner ++ ')' :: rest) 0 (1 + inner.length) :=
        ⟨[], inner, rest, rfl, inside, rfl, by simp⟩
      rcases Nat.lt_trichotomy place (1 + inner.length) with within | rfl | beyond
      · cases place with
        | zero => exact ⟨_, .inl outer⟩
        | succ place =>
            have place' : inner[place]? = some c := by
              rwa [List.cons_append, List.getElem?_cons_succ, List.getElem?_append_left (by omega)] at here
            obtain ⟨other, partners⟩ := ihInner place'
            refine ⟨other + 1, ?_⟩
            simpa [Nat.add_comm] using partners.imp (·.around ['('] (')' :: rest)) (·.around ['('] (')' :: rest))
      · exact ⟨0, .inr outer⟩
      · obtain ⟨place, rfl⟩ := Nat.exists_eq_add_of_lt beyond
        have place' : rest[place]? = some c := by
          rw [List.getElem?_append_right (by simp; omega)] at here
          simpa [show 1 + inner.length + place + 1 - (inner.length + 1) = place + 1 by omega] using here
        obtain ⟨other, partners⟩ := ihRest place'
        refine ⟨1 + inner.length + other + 1, ?_⟩
        have moved := partners.imp (·.around ('(' :: inner ++ [')']) []) (·.around ('(' :: inner ++ [')']) [])
        simpa [Nat.add_comm, Nat.add_left_comm, Nat.add_assoc] using moved

/-! ## The stack -/

/-- The stack after a text that starts at an index. -/
def openedFrom (index : Nat) (opened : List Nat) : List Char → List Nat
  | [] => opened
  | c :: rest =>
      if c = '(' then openedFrom (index + 1) (index :: opened) rest
      else if c = ')' then openedFrom (index + 1) opened.tail rest
      else openedFrom (index + 1) opened rest

/-- The places of the parentheses that are open after a text, innermost first. -/
def openedAfter (s : List Char) : List Nat := openedFrom 0 [] s

theorem openedFrom_append (first second : List Char) :
    openedFrom n opened (first ++ second) = openedFrom (n + first.length) (openedFrom n opened first) second := by
  induction first generalizing n opened with
  | nil => rfl
  | cons c rest ih =>
      simp only [List.cons_append, openedFrom, List.length_cons, ih]
      split
      · rw [Nat.add_right_comm, Nat.add_assoc]
      · split <;> rw [Nat.add_right_comm, Nat.add_assoc]

/-- A balanced text leaves the stack as it was. -/
theorem openedFrom_of_balanced (balanced : Balanced s) : openedFrom n opened s = opened := by
  induction balanced generalizing n opened with
  | nil => rfl
  | other opening closing _ ih =>
      rw [openedFrom, if_neg opening, if_neg closing]
      exact ih
  | pair _ _ ihInner ihRest =>
      rw [List.cons_append, openedFrom, if_pos rfl, openedFrom_append, ihInner, openedFrom, if_neg (by decide),
        if_pos rfl]
      exact ihRest

theorem mem_openedFrom (member : k ∈ openedFrom n opened s) :
    k ∈ opened ∨ n ≤ k ∧ s[k - n]? = some '(' := by
  induction s generalizing n opened with
  | nil => exact .inl member
  | cons c rest ih =>
      have behind : n + 1 ≤ k ∧ rest[k - (n + 1)]? = some '(' → n ≤ k ∧ (c :: rest)[k - n]? = some '(' := by
        rintro ⟨past, here⟩
        rw [show k - n = k - (n + 1) + 1 by omega, List.getElem?_cons_succ]
        exact ⟨by omega, here⟩
      unfold openedFrom at member
      split at member
      · rename_i opening
        rcases ih member with inside | later
        · rcases List.mem_cons.mp inside with rfl | inside
          · exact .inr ⟨Nat.le_refl k, by simp [opening]⟩
          · exact .inl inside
        · exact .inr (behind later)
      · split at member
        · exact (ih member).imp List.mem_of_mem_tail behind
        · exact (ih member).imp_right behind

theorem getElem?_of_mem_openedAfter (member : k ∈ openedAfter s) : s[k]? = some '(' := by
  rcases mem_openedFrom member with none | ⟨_, here⟩
  · cases none
  · exact here

theorem openedAfter_concat (s : List Char) (c : Char) :
    openedAfter (s ++ [c]) =
      if c = '(' then s.length :: openedAfter s else if c = ')' then (openedAfter s).tail else openedAfter s := by
  simp [openedAfter, openedFrom_append, openedFrom]

/-- Behind the place on top of the stack the text is balanced, and the rest of the stack is that before it. -/
theorem exists_of_openedAfter (top : openedAfter s = k :: opened) :
    ∃ before inner, s = before ++ '(' :: inner ∧ Balanced inner ∧ k = before.length ∧
      openedAfter before = opened := by
  induction hs : s.length using Nat.strongRecOn generalizing s k opened with
  | ind length ih =>
      subst hs
      rcases List.eq_nil_or_concat s with rfl | ⟨front, c, rfl⟩
      · cases top
      · rw [List.concat_eq_append] at top ih ⊢
        rw [openedAfter_concat] at top
        split at top
        · rename_i opening
          obtain ⟨rfl, rfl⟩ := List.cons.inj top
          exact ⟨front, [], by rw [opening], .nil, rfl, rfl⟩
        · split at top
          · -- The closing parenthesis takes the place on top away, and what it encloses goes to the one below.
            rename_i closing
            obtain ⟨m, opened', stack⟩ : ∃ m opened', openedAfter front = m :: opened' :=
              List.exists_cons_of_ne_nil fun none => by simp [none] at top
            rw [stack, List.tail_cons] at top
            subst top
            obtain ⟨outer, inner, rfl, inside, -, below⟩ := ih front.length (by simp) stack rfl
            obtain ⟨before, first, rfl, balanced, place, bottom⟩ := ih outer.length (by simp) below rfl
            refine ⟨before, first ++ ('(' :: inner ++ [')']), ?_, balanced.append inside.enclosed, place, bottom⟩
            simp [closing]
          · rename_i opening closing
            obtain ⟨before, inner, rfl, inside, place, bottom⟩ := ih front.length (by simp) top rfl
            exact ⟨before, inner ++ [c], by simp, inside.append (.other opening closing .nil), place, bottom⟩

/-- A closing parenthesis is the partner of the place on top of the stack, and of no other. -/
theorem partners_iff :
    Partners (before ++ ')' :: after) k before.length ↔ ∃ below, openedAfter before = k :: below := by
  constructor
  · rintro ⟨front, inner, back, split, inside, rfl, length⟩
    obtain ⟨rfl, -⟩ := List.append_inj split (by simp; omega)
    refine ⟨openedAfter front, ?_⟩
    rw [openedAfter, openedFrom_append, openedFrom, if_pos rfl, openedFrom_of_balanced inside, Nat.zero_add]
    rfl
  · rintro ⟨below, top⟩
    obtain ⟨front, inner, rfl, inside, rfl, -⟩ := exists_of_openedAfter top
    exact ⟨front, inner, after, rfl, inside, rfl, by simp; omega⟩

/-- What is open at the end has no partner. -/
theorem not_partners_of_mem_openedAfter (member : k ∈ openedAfter s) (second : Nat) : ¬Partners s k second := by
  rintro ⟨front, inner, back, rfl, inside, rfl, -⟩
  rw [List.append_assoc, openedAfter, openedFrom_append, List.cons_append, openedFrom, if_pos rfl, openedFrom_append,
    openedFrom_of_balanced inside, openedFrom, if_neg (by decide), if_pos rfl, List.tail_cons] at member
  rcases mem_openedFrom member with earlier | ⟨later, -⟩
  · have inside := getElem?_of_mem_openedAfter earlier
    simp at inside
  · omega

/-- A text is balanced if no closing parenthesis finds the stack empty and it is empty at the end. -/
theorem balanced_of_openedAfter (closed : openedAfter s = [])
    (matched : ∀ before after, s = before ++ ')' :: after → openedAfter before ≠ []) : Balanced s := by
  induction hs : s.length using Nat.strongRecOn generalizing s with
  | ind length ih =>
      subst hs
      rcases List.eq_nil_or_concat s with rfl | ⟨front, c, rfl⟩
      · exact .nil
      · rw [List.concat_eq_append] at closed matched ih ⊢
        have shorter {part rest : List Char} (split : front = part ++ rest) (closed : openedAfter part = []) :
            Balanced part := by
          refine ih part.length (by simp [split]) closed (fun before after inside => ?_) rfl
          exact matched before (after ++ rest ++ [c]) (by simp [split, inside])
        rw [openedAfter_concat] at closed
        split at closed
        · cases closed
        · split at closed
          · rename_i closing
            subst closing
            obtain ⟨k, below, top⟩ := List.exists_cons_of_ne_nil (matched front [] rfl)
            rw [top, List.tail_cons] at closed
            obtain ⟨before, inner, rfl, inside, -, bottom⟩ := exists_of_openedAfter top
            rw [List.append_assoc]
            exact (shorter rfl (bottom.trans closed)).append inside.enclosed
          · rename_i opening closing
            exact (shorter (List.append_nil front).symm closed).append (.other opening closing .nil)

/-! ## Faults -/

namespace Fault

/-- There is one thing to say about a place at most. -/
theorem unique {first second : String} (fault : Fault s place first) (other : Fault s place second) :
    first = second := by
  have parentheses : IsAllowed '(' ∧ IsAllowed ')' := ⟨.inr (by decide), .inr (by decide)⟩
  cases fault <;> cases other <;> grind

theorem of_mem_openedAfter (member : k ∈ openedAfter s) : Fault s k "unclosed '('" :=
  .unclosed (getElem?_of_mem_openedAfter member) (not_partners_of_mem_openedAfter member)

theorem of_nothing_open (stack : openedAfter before = []) :
    Fault (before ++ ')' :: after) before.length "unmatched ')'" := by
  refine .unmatched (by simp) fun first partners => ?_
  obtain ⟨below, top⟩ := partners_iff.mp partners
  exact List.cons_ne_nil _ _ (top.symm.trans stack)

theorem of_strange (opening : c ≠ '(') (closing : c ≠ ')') (strange : ¬isPlain c = true) :
    Fault (before ++ c :: after) before.length ("unexpected character '" ++ String.singleton c ++ "'") := by
  refine .unexpected (by simp) fun allowed => ?_
  rcases isAllowed_iff.mp allowed with opens | closes | plain
  · exact opening opens
  · exact closing closes
  · exact strange plain

end Fault

/-- Of partners there is nothing to say. -/
theorem Partners.silent {second : Nat} (partners : Partners s k second) :
    (∀ message, ¬Fault s k message) ∧ ∀ message, ¬Fault s second message := by
  have opens : s[k]? = some '(' ∧ s[second]? = some ')' := by
    obtain ⟨before, inner, after, rfl, -, rfl, rfl⟩ := partners
    constructor
    · simp
    · rw [List.append_assoc, List.getElem?_append_right (by omega)]
      simp [show before.length + 1 + inner.length - before.length = inner.length + 1 by omega]
  have allowed : IsAllowed '(' ∧ IsAllowed ')' := ⟨.inr (by decide), .inr (by decide)⟩
  constructor <;> intro message fault <;> cases fault <;> grind

/-- There is nothing to say about the balanced texts of allowed characters, and about no others. -/
theorem not_fault_iff :
    (∀ place message, ¬Fault s place message) ↔ (∀ c ∈ s, IsAllowed c) ∧ Balanced s := by
  constructor
  · intro silent
    refine ⟨fun c member => ?_, balanced_of_openedAfter ?_ fun before after split unopened => ?_⟩
    · obtain ⟨place, here⟩ := List.mem_iff_getElem?.mp member
      exact Classical.byContradiction fun strange => silent _ _ (.unexpected here strange)
    · refine List.eq_nil_iff_forall_not_mem.mpr fun k member => ?_
      exact silent _ _ (.of_mem_openedAfter member)
    · subst split
      exact silent _ _ (.of_nothing_open unopened)
  · rintro ⟨allowed, balanced⟩ place message fault
    have partnered {c : Char} (here : s[place]? = some c) (parenthesis : c = '(' ∨ c = ')') : False := by
      obtain ⟨other, partners | partners⟩ := balanced.partnered here parenthesis
      · exact partners.silent.1 message fault
      · exact partners.silent.2 message fault
    cases fault with
    | unexpected here strange => exact strange (allowed _ (List.mem_of_getElem? here))
    | unmatched here _ => exact partnered here (.inr rfl)
    | unclosed here _ => exact partnered here (.inl rfl)

/-- What is to be said about the places in a region. -/
def ToldOf (s : List Char) (region : Nat → Prop) (d : Diagnostic) : Prop :=
  ∃ place message, Fault s place message ∧ d = errorAt place message ∧ region place

section ToldOf

variable {region other : Nat → Prop} {d : Diagnostic}

theorem toldOf_congr (same : ∀ place message, Fault s place message → (region place ↔ other place)) :
    ToldOf s region d ↔ ToldOf s other d := by
  constructor
  · rintro ⟨place, message, fault, rfl, inside⟩
    exact ⟨place, message, fault, rfl, (same place message fault).mp inside⟩
  · rintro ⟨place, message, fault, rfl, inside⟩
    exact ⟨place, message, fault, rfl, (same place message fault).mpr inside⟩

/-- A fault at a place that is not in a region adds one message to those about the region. -/
theorem toldOf_insert (fault : Fault s place message) (whole : ∀ k, other k ↔ k = place ∨ region k) :
    ToldOf s other d ↔ d = errorAt place message ∨ ToldOf s region d := by
  constructor
  · rintro ⟨k, text, told, rfl, inside⟩
    rcases (whole k).mp inside with rfl | inside
    · exact .inl (by rw [told.unique fault])
    · exact .inr ⟨k, text, told, rfl, inside⟩
  · rintro (rfl | ⟨k, text, told, rfl, inside⟩)
    · exact ⟨place, message, fault, rfl, (whole place).mpr (.inl rfl)⟩
    · exact ⟨k, text, told, rfl, (whole k).mpr (.inr inside)⟩

end ToldOf

/-! ## The check -/

/-- At the end, the check speaks of the places that are still open. -/
theorem mem_check_nil {d : Diagnostic} :
    d ∈ check before.length (openedAfter before) [] ↔
      ToldOf before (fun place => before.length ≤ place ∨ place ∈ openedAfter before) d := by
  rw [check, List.mem_map]
  constructor
  · rintro ⟨k, member, rfl⟩
    have inside := List.mem_reverse.mp member
    exact ⟨k, _, .of_mem_openedAfter inside, rfl, .inr inside⟩
  · rintro ⟨k, message, fault, rfl, beyond | inside⟩
    · have nothing : before[k]? = none := List.getElem?_eq_none beyond
      cases fault <;> simp_all
    · exact ⟨k, List.mem_reverse.mpr inside, by rw [fault.unique (.of_mem_openedAfter inside)]⟩

/-- Behind a text, the check speaks of the places from there on and of those that are still open. -/
theorem mem_check {d : Diagnostic} :
    d ∈ check before.length (openedAfter before) rest ↔
      ToldOf (before ++ rest) (fun place => before.length ≤ place ∨ place ∈ openedAfter before) d := by
  induction rest generalizing before with
  | nil =>
      rw [List.append_nil]
      exact mem_check_nil
  | cons c rest ih =>
      have next := @ih (before ++ [c])
      rw [List.append_assoc, List.singleton_append, openedAfter_concat, List.length_append, List.length_singleton]
        at next
      have split (place : Nat) : before.length ≤ place ↔ place = before.length ∨ before.length + 1 ≤ place := by omega
      unfold check
      split
      · rename_i opening
        rw [if_pos opening] at next
        rw [next]
        refine toldOf_congr fun place _ _ => ?_
        rw [split, List.mem_cons]
        tauto
      · rename_i opening
        rw [if_neg opening] at next
        split
        · rename_i closing
          subst closing
          rw [if_pos rfl] at next
          split
          · rename_i stack
            rw [stack, List.tail_nil] at next
            rw [List.mem_cons, next, stack]
            exact (toldOf_insert (.of_nothing_open stack) fun place => by rw [split, or_assoc]).symm
          · rename_i k below stack
            rw [stack, List.tail_cons] at next
            rw [next, stack]
            -- The two places that the regions differ in are partners.
            have partners : Partners (before ++ ')' :: rest) k before.length := partners_iff.mpr ⟨below, stack⟩
            have silent := partners.silent
            refine toldOf_congr fun place message fault => ?_
            have different : place ≠ k ∧ place ≠ before.length := by
              constructor <;> rintro rfl
              · exact silent.1 message fault
              · exact silent.2 message fault
            rw [split, List.mem_cons]
            tauto
        · rename_i closing
          rw [if_neg closing] at next
          split
          · rename_i plain
            rw [next]
            have here : (before ++ c :: rest)[before.length]? = some c := by simp
            have allowed : IsAllowed c := isAllowed_iff.mpr (.inr (.inr plain))
            refine toldOf_congr fun place message fault => ?_
            have different : place ≠ before.length := by
              rintro rfl
              cases fault <;> simp_all
            rw [split]
            tauto
          · rename_i strange
            rw [List.mem_cons, next]
            exact (toldOf_insert (.of_strange opening closing strange) fun place => by rw [split, or_assoc]).symm

theorem mem_check_iff {d : Diagnostic} :
    d ∈ check 0 [] s ↔ ∃ place message, Fault s place message ∧ d = errorAt place message := by
  have all : d ∈ check 0 [] s ↔ ToldOf s (fun place => 0 ≤ place ∨ place ∈ openedAfter []) d := @mem_check [] s d
  simpa [ToldOf] using all

theorem start_of_mem_check {d : Diagnostic} (member : d ∈ check n opened s) : d.start ∈ opened ∨ n ≤ d.start := by
  induction s generalizing n opened with
  | nil =>
      obtain ⟨k, inside, rfl⟩ := List.mem_map.mp member
      exact .inl (List.mem_reverse.mp inside)
  | cons c rest ih =>
      have later {opened' : List Nat} (member : d ∈ check (n + 1) opened' rest) : d.start ∈ opened' ∨ n ≤ d.start :=
        (ih member).imp_right Nat.le_of_succ_le
      have now {opened' : List Nat} {message : String}
          (member : d ∈ errorAt n message :: check (n + 1) opened' rest) : d.start ∈ opened' ∨ n ≤ d.start := by
        rcases List.mem_cons.mp member with rfl | member
        · exact .inr (Nat.le_refl n)
        · exact later member
      unfold check at member
      split at member
      · rcases later member with inside | beyond
        · exact (List.mem_cons.mp inside).symm.imp_right fun here => Nat.le_of_eq here.symm
        · exact .inr beyond
      · split at member
        · split at member
          · exact now member
          · exact (later member).imp_left (List.mem_cons_of_mem _)
        · split at member
          · exact later member
          · exact now member

/-- No place is spoken of twice. -/
theorem nodup_check (distinct : opened.Nodup) (earlier : ∀ k ∈ opened, k < n) :
    ((check n opened s).map (·.start)).Nodup := by
  induction s generalizing n opened with
  | nil => simpa [check, errorAt, Function.comp_def] using distinct
  | cons c rest ih =>
      have earlier' (k : Nat) (inside : k ∈ opened) : k < n + 1 := Nat.lt_succ_of_lt (earlier k inside)
      have fresh {opened' : List Nat} (before : ∀ k ∈ opened', k < n) :
          n ∉ (check (n + 1) opened' rest).map (·.start) := by
        intro member
        obtain ⟨d, inside, rfl⟩ := List.mem_map.mp member
        rcases start_of_mem_check inside with open' | beyond
        · exact Nat.lt_irrefl _ (before _ open')
        · omega
      unfold check
      split
      · refine ih (List.nodup_cons.mpr ⟨fun inside => Nat.lt_irrefl n (earlier n inside), distinct⟩) fun k inside => ?_
        rcases List.mem_cons.mp inside with rfl | inside
        · exact Nat.lt_succ_self k
        · exact earlier' k inside
      · split
        · split
          · exact List.nodup_cons.mpr ⟨fresh earlier, ih distinct earlier'⟩
          · exact ih (List.nodup_cons.mp distinct).2 fun k inside => earlier' k (List.mem_cons_of_mem _ inside)
        · split
          · exact ih distinct earlier'
          · exact List.nodup_cons.mpr ⟨fresh earlier, ih distinct earlier'⟩

end FunctionBody

/-! ## The first error -/

namespace Compilation

theorem start_le_of_leftmost {all : List Diagnostic} {start : Option Diagnostic} {d : Diagnostic}
    (found : all.foldl leftmost start = some d) :
    (∀ a, start = some a → d.start ≤ a.start) ∧ ∀ other ∈ all, d.start ≤ other.start := by
  induction all generalizing start with
  | nil =>
      cases found
      simp
  | cons b rest ih =>
      obtain ⟨first, later⟩ := ih found
      have least : d.start ≤ b.start ∧ ∀ a, start = some a → d.start ≤ a.start := by
        cases start with
        | none => exact ⟨first b rfl, nofun⟩
        | some a =>
            simp only [leftmost] at first
            split at first
            all_goals
              have smaller := first _ rfl
              simp only [Option.some.injEq, forall_eq']
              omega
      exact ⟨least.2, List.forall_mem_cons.mpr ⟨least.1, later⟩⟩

theorem exists_leftmost (all : List Diagnostic) (a : Diagnostic) : ∃ d, all.foldl leftmost (some a) = some d := by
  induction all generalizing a with
  | nil => exact ⟨a, rfl⟩
  | cons b rest ih =>
      rw [List.foldl_cons, leftmost]
      split <;> exact ih _

/-- Of errors with different starts the first is the leftmost. -/
theorem firstError_iff {c : Compilation} (errors : ∀ d ∈ c.diagnostics, d.severity = .error)
    (distinct : (c.diagnostics.map (·.start)).Nodup) (d : Diagnostic) :
    c.firstError = some d ↔ d ∈ c.diagnostics ∧ ∀ other ∈ c.diagnostics, d.start ≤ other.start := by
  have all : (c.diagnostics.filter fun d => d.severity = .error) = c.diagnostics :=
    List.filter_eq_self.mpr fun d member => by simp [errors d member]
  have first {e : Diagnostic} (found : c.firstError = some e) :
      e ∈ c.diagnostics ∧ ∀ other ∈ c.diagnostics, e.start ≤ other.start := by
    refine ⟨mem_of_firstError found, ?_⟩
    rw [firstError, all] at found
    exact (start_le_of_leftmost found).2
  refine ⟨first, fun ⟨member, least⟩ => ?_⟩
  obtain ⟨e, found⟩ : ∃ e, c.firstError = some e := by
    rw [firstError, all]
    cases h : c.diagnostics with
    | nil => simp [h] at member
    | cons b rest => exact exists_leftmost rest b
  obtain ⟨inside, lower⟩ := first found
  have same : e = d :=
    List.inj_on_of_nodup_map distinct inside member (Nat.le_antisymm (lower d member) (least e inside))
  rw [found, same]

end Compilation

namespace FunctionBody

/-- A body passes if it is not blank, has allowed characters only and is balanced. Each character of another body that
    is not blank is spoken of once if there is something to say of it, and the first error is the leftmost. -/
theorem compile_checks_body (c : Computer) (units : List UInt16) :
    let body := Text.ofUnitsLossy units
    let compiled := (Engine.compile c units).1
    (compiled.diagnostics = [] ↔ body.all Text.isBlank = false ∧ (∀ ch ∈ body, IsAllowed ch) ∧ Balanced body) ∧
    if body.all Text.isBlank then compiled.diagnostics = [errorAt 0 "expression expected"]
    else
      (compiled.diagnostics.map (·.start)).Nodup ∧
      (∀ d, d ∈ compiled.diagnostics ↔ ∃ place message, Fault body place message ∧ d = errorAt place message) ∧
      ∀ d, compiled.firstError = some d ↔
        ∃ place message, Fault body place message ∧ d = errorAt place message ∧
          ∀ other message, Fault body other message → place ≤ other := by
  intro body compiled
  have messages : compiled.diagnostics = diagnostics body := rfl
  unfold diagnostics at messages
  split_ifs with blank
  · rw [if_pos blank] at messages
    simp [messages, blank]
  · rw [if_neg blank] at messages
    have member (d : Diagnostic) :
        d ∈ compiled.diagnostics ↔ ∃ place message, Fault body place message ∧ d = errorAt place message := by
      rw [messages]
      exact mem_check_iff
    have distinct : (compiled.diagnostics.map (·.start)).Nodup := by
      rw [messages]
      exact nodup_check .nil nofun
    have errors : ∀ d ∈ compiled.diagnostics, d.severity = .error := by
      intro d inside
      obtain ⟨place, message, -, rfl⟩ := (member d).mp inside
      rfl
    refine ⟨?_, distinct, member, fun d => ?_⟩
    · rw [← not_fault_iff, List.eq_nil_iff_forall_not_mem]
      simp only [member, blank]
      constructor
      · exact fun silent => ⟨trivial, fun place message fault => silent _ ⟨place, message, fault, rfl⟩⟩
      · rintro ⟨-, silent⟩ d ⟨place, message, fault, -⟩
        exact silent place message fault
    · rw [Compilation.firstError_iff errors distinct, member]
      constructor
      · rintro ⟨⟨place, message, fault, rfl⟩, least⟩
        exact ⟨place, message, fault, rfl, fun other text told => least _ ((member _).mpr ⟨other, text, told, rfl⟩)⟩
      · rintro ⟨place, message, fault, rfl, least⟩
        refine ⟨⟨place, message, fault, rfl⟩, fun other inside => ?_⟩
        obtain ⟨k, text, told, rfl⟩ := (member other).mp inside
        exact least k text told

example : diagnostics "(a))+@(".toList =
    [errorAt 3 "unmatched ')'", errorAt 5 "unexpected character '@'", errorAt 6 "unclosed '('"] := by decide

end FunctionBody

end PocketBasic
