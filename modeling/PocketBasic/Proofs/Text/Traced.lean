import Mathlib.Data.List.Basic
import PocketBasic.Terminal.Key
import PocketBasic.Text.Lines

/-! # Where control characters come from

A text is traced to some characters if it has no control characters but those. Parts of a text that is traced
are traced, and what is written about numbers or in the words of a message adds no control character.
-/

namespace PocketBasic

/-! ## Parts of a text -/

namespace Text

variable {s part before after : List Char} {p : Char → Bool}

theorem trim_subset (s : List Char) : trim s ⊆ s := by
  intro c member
  have inside : c ∈ trimStart s := by
    simpa using (List.dropWhile_sublist isBlank).subset (List.mem_reverse.mp member)
  exact (List.dropWhile_sublist isBlank).subset inside

theorem subset_of_splitFirst (split : splitFirst p s = some (before, after)) :
    before ⊆ s ∧ after ⊆ s := by
  induction s generalizing before with
  | nil => cases split
  | cons c rest ih =>
      unfold splitFirst at split
      split at split
      · cases split
        exact ⟨List.nil_subset _, List.subset_cons_self _ _⟩
      · obtain ⟨⟨first, second⟩, found, same⟩ := Option.map_eq_some_iff.mp split
        cases same
        obtain ⟨inFront, behind⟩ := ih found
        exact ⟨List.cons_subset_cons c inFront, List.subset_cons_of_subset c behind⟩

theorem subset_of_mem_splitAll (member : part ∈ splitAll p s) : part ⊆ s := by
  induction s generalizing part with
  | nil =>
      cases List.mem_singleton.mp member
      exact List.nil_subset _
  | cons c rest ih =>
      unfold splitAll at member
      split at member
      · rcases List.mem_cons.mp member with rfl | member
        · exact List.nil_subset _
        · exact List.subset_cons_of_subset c (ih member)
      · split at member
        · cases List.mem_singleton.mp member
          simp
        · rename_i first parts split
          rcases List.mem_cons.mp member with rfl | member
          · exact List.cons_subset_cons c (ih (split ▸ List.mem_cons_self))
          · exact List.subset_cons_of_subset c (ih (split ▸ List.mem_cons_of_mem first member))

theorem subset_of_mem_words (member : part ∈ words s) : part ⊆ s :=
  subset_of_mem_splitAll (List.mem_filter.mp member).1

theorem subset_of_dropStart? {start : List Char} (dropped : dropStart? start s = some part) : part ⊆ s := by
  induction start, s using dropStart?.induct with
  | case1 rest =>
      rw [dropStart?] at dropped
      cases dropped
      exact List.Subset.refl _
  | case2 => cases dropped
  | case3 ps c cs ih =>
      simp only [dropStart?, if_true] at dropped
      exact List.subset_cons_of_subset c (ih dropped)
  | case4 p ps c cs other =>
      simp [dropStart?, other] at dropped

theorem subset_of_dropLast? {last : Char} (dropped : dropLast? last s = some part) : part ⊆ s := by
  unfold dropLast? at dropped
  split at dropped
  · split at dropped <;> cases dropped
    exact List.dropLast_subset s
  · cases dropped

theorem subset_of_between? {first last : Char} (inner : between? first last s = some part) : part ⊆ s := by
  cases s with
  | nil => cases inner
  | cons c rest =>
      simp only [between?] at inner
      split at inner
      · split at inner
        · split at inner <;> cases inner
          exact List.subset_cons_of_subset c (List.dropLast_subset rest)
        · cases inner
      · cases inner

/-- Lines have no line feeds, and nothing that is not in the text. -/
theorem mem_of_mem_lines {line : List Char} {c : Char} (member : line ∈ lines s) (inside : c ∈ line) :
    c ∈ s ∧ c ≠ '\n' := by
  induction s using lines.induct generalizing line with
  | case1 => simp [lines] at member
  | case2 rest ih =>
      rw [lines] at member
      rcases List.mem_cons.mp member with rfl | member
      · cases inside
      · exact (ih member inside).imp_left (List.mem_cons_of_mem _)
  | case3 rest ih =>
      rw [lines] at member
      rcases List.mem_cons.mp member with rfl | member
      · cases inside
      · exact (ih member inside).imp_left fun old => List.mem_cons_of_mem _ (List.mem_cons_of_mem _ old)
  | case4 first rest notFeed notEnding none ih =>
      rw [lines, none] at member
      · cases List.mem_singleton.mp member
        cases List.mem_singleton.mp inside
        exact ⟨List.mem_cons_self, notFeed⟩
      · exact notFeed
      · exact notEnding
  | case5 first rest notFeed notEnding head more split ih =>
      rw [lines, split] at member
      · rw [split] at ih
        rcases List.mem_cons.mp member with rfl | member
        · rcases List.mem_cons.mp inside with rfl | inside
          · exact ⟨List.mem_cons_self, notFeed⟩
          · exact (ih List.mem_cons_self inside).imp_left (List.mem_cons_of_mem _)
        · exact (ih (List.mem_cons_of_mem _ member) inside).imp_left (List.mem_cons_of_mem _)
      · exact notFeed
      · exact notEnding

theorem mem_of_mem_joinLines {texts : List (List Char)} {c : Char} (member : c ∈ joinLines texts) :
    c = '\n' ∨ ∃ line ∈ texts, c ∈ line := by
  induction texts using joinLines.induct with
  | case1 => cases member
  | case2 line => exact .inr ⟨line, List.mem_cons_self, member⟩
  | case3 line more _ ih =>
      rw [joinLines] at member
      · rcases List.mem_append.mp member with inside | member
        · exact .inr ⟨line, List.mem_cons_self, inside⟩
        · rcases List.mem_cons.mp member with rfl | member
          · exact .inl rfl
          · exact (ih member).imp_right fun ⟨line, old, inside⟩ => ⟨line, List.mem_cons_of_mem _ old, inside⟩
      · assumption

end Text

/-! ## Traced texts -/

/-- Every control character of the text is one of the given characters. -/
def Text.Traced (given s : List Char) : Prop := ∀ c ∈ s, Key.isControl c = true → c ∈ given

namespace Text

variable {given s t : List Char} {c : Char}

@[simp] theorem traced_nil : Traced given [] := fun _ member => by cases member

@[simp] theorem traced_cons : Traced given (c :: s) ↔ (Key.isControl c = true → c ∈ given) ∧ Traced given s :=
  List.forall_mem_cons

@[simp] theorem traced_append : Traced given (s ++ t) ↔ Traced given s ∧ Traced given t :=
  List.forall_mem_append

theorem traced_self (s : List Char) : Traced s s := fun _ member _ => member

theorem Traced.of_subset (traced : Traced given t) (inside : s ⊆ t) : Traced given s :=
  fun c member => traced c (inside member)

/-- The text has no control characters. -/
def isPlain (s : List Char) : Bool := s.all fun c => !Key.isControl c

theorem isPlain_iff : isPlain s = true ↔ ∀ c ∈ s, Key.isControl c = false := by
  simp [isPlain]

theorem traced_of_plain (plain : isPlain s = true) : Traced given s := by
  intro c member control
  rw [isPlain_iff.mp plain c member] at control
  cases control

theorem traced_cons_of_plain (plain : Key.isControl c = false) : Traced given (c :: s) ↔ Traced given s := by
  simp [plain]

theorem traced_replicate (n : Nat) (plain : Key.isControl c = false) : Traced given (List.replicate n c) :=
  traced_of_plain (isPlain_iff.mpr fun _ member => (List.eq_of_mem_replicate member) ▸ plain)

theorem Traced.append {first second : String} (traced : Traced given first.toList)
    (more : Traced given second.toList) : Traced given (first ++ second).toList := by
  rw [String.toList_append, traced_append]
  exact ⟨traced, more⟩

/-- Words in front of a text, and behind it. -/
theorem Traced.behind {text words : String} (traced : Traced given text.toList)
    (plain : isPlain words.toList = true) : Traced given (words ++ text).toList :=
  (traced_of_plain plain).append traced

theorem Traced.before {text words : String} (traced : Traced given text.toList)
    (plain : isPlain words.toList = true) : Traced given (text ++ words).toList :=
  traced.append (traced_of_plain plain)

/-- A change that makes no control character of another character. -/
theorem Traced.map {f : Char → Char} (traced : Traced given s)
    (keeps : ∀ c, Key.isControl (f c) = true → f c = c) : Traced given (s.map f) := by
  intro c member control
  obtain ⟨old, inside, rfl⟩ := List.mem_map.mp member
  have same := keeps old control
  rw [same] at control ⊢
  exact traced old inside control

theorem toLower_of_isControl (c : Char) (control : Key.isControl c.toLower = true) : c.toLower = c := by
  unfold Char.toLower at control ⊢
  split at control
  · rename_i capital
    simp [Key.isControl, UInt32.le_iff_toNat_le, - Char.toNat_val] at capital control
    omega
  · rw [dif_neg ‹_›]

theorem toUpper_of_isControl (c : Char) (control : Key.isControl c.toUpper = true) : c.toUpper = c := by
  unfold Char.toUpper at control ⊢
  split at control
  · rename_i small
    simp [Key.isControl, UInt32.le_iff_toNat_le, - Char.toNat_val] at small control
    omega
  · rw [dif_neg ‹_›]

/-! ## Numbers -/

theorem isControl_digitChar (n : Nat) : Key.isControl n.digitChar = false := by
  have listed : ∀ n < 36, Key.isControl (Nat.digitChar n) = false := by decide
  by_cases small : n < 36
  · exact listed n small
  · have past : n.digitChar = '*' := by
      unfold Nat.digitChar
      repeat rw [if_neg (by omega)]
    rw [past]
    rfl

theorem mem_toDigits {base n : Nat} (member : c ∈ Nat.toDigits base n) : ∃ d, c = Nat.digitChar d := by
  have core (fuel n : Nat) (ds : List Char) (old : ∀ c ∈ ds, ∃ d, c = Nat.digitChar d) :
      ∀ c ∈ Nat.toDigitsCore base fuel n ds, ∃ d, c = Nat.digitChar d := by
    induction fuel generalizing n ds with
    | zero => exact old
    | succ fuel ih =>
        have more := List.forall_mem_cons.mpr ⟨⟨n % base, rfl⟩, old⟩
        unfold Nat.toDigitsCore
        dsimp only
        split
        · exact more
        · exact ih _ _ more
  exact core _ n [] (fun c none => by cases none) c member

theorem traced_toDigits (base n : Nat) : Traced given (Nat.toDigits base n) := by
  refine traced_of_plain (isPlain_iff.mpr fun c member => ?_)
  obtain ⟨d, rfl⟩ := mem_toDigits member
  exact isControl_digitChar d

@[simp] theorem traced_toString_nat (n : Nat) : Traced given (toString n).toList := by
  have digits : (toString n).toList = Nat.toDigits 10 n := by simp [toString]
  rw [digits]
  exact traced_toDigits 10 n

@[simp] theorem traced_toString_int (n : Int) : Traced given (toString n).toList := by
  cases n with
  | ofNat n => exact traced_toString_nat n
  | negSucc n =>
      have signed : (toString (Int.negSucc n)).toList = '-' :: (toString (n + 1)).toList := by
        simp [toString, Int.repr]
      rw [signed, traced_cons_of_plain (by decide)]
      exact traced_toString_nat (n + 1)

end Text

/-! ## Results and faults -/

section Meets

variable {ε δ α β : Type} {bad : ε → Prop} {good : α → Prop} {fine : β → Prop}

/-- A result is good, and a fault is as bad as it may be. -/
def Meets (bad : ε → Prop) (good : α → Prop) : Except ε α → Prop
  | .ok a => good a
  | .error e => bad e

namespace Meets

variable {x : Except ε α}

theorem ok (meets : Meets bad good x) {a : α} (result : x = .ok a) : good a := by
  subst result
  exact meets

theorem error (meets : Meets bad good x) {e : ε} (fault : x = .error e) : bad e := by
  subst fault
  exact meets

theorem bind {f : α → Except ε β} (meets : Meets bad good x) (next : ∀ a, good a → Meets bad fine (f a)) :
    Meets bad fine (x >>= f) := by
  cases x with
  | ok a => exact next a meets
  | error => exact meets

theorem map {f : α → β} (meets : Meets bad good x) (next : ∀ a, good a → fine (f a)) :
    Meets bad fine (x.map f) := by
  cases x with
  | ok a => exact next a meets
  | error => exact meets

theorem mapError {f : ε → δ} {worse : δ → Prop} (meets : Meets bad good x) (next : ∀ e, bad e → worse (f e)) :
    Meets worse good (x.mapError f) := by
  cases x with
  | ok => exact meets
  | error e => exact next e meets

theorem trivial (x : Except ε α) : Meets (fun _ => True) (fun _ => True) x := by
  cases x <;> exact True.intro

theorem weaken {other : α → Prop} (meets : Meets bad good x) (next : ∀ a, good a → other a) :
    Meets bad other x := by
  cases x with
  | ok a => exact next a meets
  | error => exact meets

theorem mapM {f : α → Except ε β} {items : List α} (each : ∀ a ∈ items, Meets bad fine (f a)) :
    Meets bad (fun results => ∀ b ∈ results, fine b) (items.mapM f) := by
  induction items with
  | nil => exact fun b member => by cases member
  | cons a rest ih =>
      rw [List.forall_mem_cons] at each
      rw [List.mapM_cons]
      refine each.1.bind fun first found => (ih each.2).bind fun others all => ?_
      exact List.forall_mem_cons.mpr ⟨found, all⟩

end Meets

end Meets

end PocketBasic
