import PocketBasic.Proofs.Handset.Blinking

/-! # The dirty area is a bounding box

The dirty area grows by one written area at a time. What comes of it does not depend on their order: it is the
smallest rectangle around all of them, and those without pixels do not count. Which areas they are is said by a
recording, which notes what each operation writes and what the screen looks like after it.
-/

namespace PocketBasic

namespace PixelRect

variable {a b c box : PixelRect} {areas : List PixelRect}

/-- Every pixel of the first rectangle is in the second. -/
def Within (a b : PixelRect) : Prop :=
  ∀ x y, a.contains x y = true → b.contains x y = true

/-- The smallest rectangle around all of the areas. -/
structure IsBoundingBox (box : PixelRect) (areas : List PixelRect) : Prop where
  nonempty : box.isEmpty = false
  covers : ∀ area ∈ areas, area.Within box
  least : ∀ other : PixelRect, (∀ area ∈ areas, area.Within other) → box.Within other

/-! ## Rectangles in rectangles -/

theorem within_refl (a : PixelRect) : a.Within a := fun _ _ inside => inside

theorem Within.trans (first : a.Within b) (second : b.Within c) : a.Within c :=
  fun x y inside => second x y (first x y inside)

theorem not_isEmpty_iff : a.isEmpty = false ↔ a.left < a.right ∧ a.top < a.bottom := by
  rw [← Bool.not_eq_true, isEmpty_iff]
  omega

theorem within_of_isEmpty (empty : a.isEmpty = true) : a.Within b := by
  intro x y inside
  rw [not_isEmpty_of_contains inside] at empty
  cases empty

/-- A rectangle with pixels is in another if its first and its last corner are. -/
theorem within_iff (pixels : a.isEmpty = false) :
    a.Within b ↔ (b.left ≤ a.left ∧ a.right ≤ b.right) ∧ b.top ≤ a.top ∧ a.bottom ≤ b.bottom := by
  have ordered := not_isEmpty_iff.mp pixels
  constructor
  · intro within
    have first := within a.left a.top (by rw [contains_iff]; omega)
    have last := within (a.right - 1) (a.bottom - 1) (by rw [contains_iff]; omega)
    rw [contains_iff] at first last
    omega
  · intro corners x y inside
    rw [contains_iff] at inside ⊢
    omega

theorem eq_of_within (pixels : a.isEmpty = false) (pixels' : b.isEmpty = false) (there : a.Within b)
    (back : b.Within a) : a = b := by
  have corners := (within_iff pixels).mp there
  have corners' := (within_iff pixels').mp back
  cases a
  cases b
  simp only [mk.injEq] at corners corners' ⊢
  omega

theorem within_union_left (a b : PixelRect) : a.Within (a.union b) :=
  fun _ _ inside => contains_union (.inl inside)

theorem within_union_right (a b : PixelRect) : b.Within (a.union b) :=
  fun _ _ inside => contains_union (.inr inside)

theorem not_isEmpty_union (pixels : b.isEmpty = false) : (a.union b).isEmpty = false := by
  have ordered := not_isEmpty_iff.mp pixels
  have corners := (within_iff pixels).mp (within_union_right a b)
  rw [not_isEmpty_iff]
  omega

/-- Whatever holds both rectangles holds their union. -/
theorem union_within (left : a.Within c) (right : b.Within c) : (a.union b).Within c := by
  unfold union
  split
  · exact right
  · rename_i pixels
    split
    · exact left
    · rename_i pixels'
      rw [Bool.not_eq_true] at pixels pixels'
      have corners := (within_iff pixels).mp left
      have corners' := (within_iff pixels').mp right
      intro x y inside
      rw [contains_iff] at inside ⊢
      dsimp only at inside
      omega

/-! ## Boxes around areas -/

/-- The box after one more area. -/
def widen (box : Option PixelRect) (area : PixelRect) : Option PixelRect :=
  if area.isEmpty then box else some (match box with | some box => box.union area | none => area)

/-- The smallest rectangle around the areas, and none if they have no pixels. -/
def Bounds (areas : List PixelRect) : Option PixelRect → Prop
  | none => ∀ area ∈ areas, area.isEmpty = true
  | some box => box.IsBoundingBox areas

theorem bounds_nil : Bounds [] none := fun _ member => absurd member List.not_mem_nil

theorem bounds_widen {box : Option PixelRect} (bounds : Bounds areas box) (area : PixelRect) :
    Bounds (areas ++ [area]) (widen box area) := by
  have last : area ∈ areas ++ [area] := List.mem_append_right _ (List.mem_singleton.mpr rfl)
  unfold widen
  cases empty : area.isEmpty with
  | true =>
      cases box with
      | none => exact List.forall_mem_append.mpr ⟨bounds, List.forall_mem_singleton.mpr empty⟩
      | some box =>
          refine ⟨bounds.nonempty, ?_, fun other all => ?_⟩
          · exact List.forall_mem_append.mpr
              ⟨bounds.covers, List.forall_mem_singleton.mpr (within_of_isEmpty empty)⟩
          · exact bounds.least other (List.forall_mem_append.mp all).1
  | false =>
      cases box with
      | none =>
          refine ⟨empty, ?_, fun other all => all area last⟩
          exact List.forall_mem_append.mpr ⟨fun other member => within_of_isEmpty (bounds other member),
            List.forall_mem_singleton.mpr (within_refl area)⟩
      | some box =>
          refine ⟨not_isEmpty_union empty, ?_, fun other all => ?_⟩
          · exact List.forall_mem_append.mpr
              ⟨fun other member => (bounds.covers other member).trans (within_union_left box area),
                List.forall_mem_singleton.mpr (within_union_right box area)⟩
          · exact union_within (bounds.least other (List.forall_mem_append.mp all).1) (all area last)

theorem bounds_foldl_widen {box : Option PixelRect} (bounds : Bounds areas box) (more : List PixelRect) :
    Bounds (areas ++ more) (more.foldl widen box) := by
  induction more generalizing areas box with
  | nil => rwa [List.append_nil]
  | cons area rest ih =>
      rw [List.append_cons]
      exact ih (bounds_widen bounds area)

/-- A box with pixels is not around areas without any. -/
theorem IsBoundingBox.not_all_isEmpty (bounds : box.IsBoundingBox areas) :
    ¬ ∀ area ∈ areas, area.isEmpty = true := by
  intro empty
  have ordered := not_isEmpty_iff.mp bounds.nonempty
  have nothing : box.Within ⟨0, 0, 0, 0⟩ :=
    bounds.least _ fun area member => within_of_isEmpty (empty area member)
  have corners := (within_iff bounds.nonempty).mp nothing
  dsimp only at corners
  omega

/-- There is but one box around areas. Only which areas they are counts, and not their order. -/
theorem bounds_unique {box box' : Option PixelRect} {others : List PixelRect} (bounds : Bounds areas box)
    (bounds' : Bounds others box') (same : ∀ area, area ∈ areas ↔ area ∈ others) : box = box' := by
  cases box with
  | none =>
      cases box' with
      | none => rfl
      | some box' =>
          exact absurd (fun area member => bounds area ((same area).mpr member)) bounds'.not_all_isEmpty
  | some box =>
      cases box' with
      | none => exact absurd (fun area member => bounds' area ((same area).mp member)) bounds.not_all_isEmpty
      | some box' =>
          refine congrArg some (eq_of_within bounds.nonempty bounds'.nonempty ?_ ?_)
          · exact bounds.least _ fun area member => bounds'.covers area ((same area).mp member)
          · exact bounds'.least _ fun area member => bounds.covers area ((same area).mpr member)

end PixelRect

namespace Handset

variable {h : Handset} {o : Operation}

/-! ## What operations write -/

/-- The area in which a caret that is shown is taken off. -/
def caretAreas (h : Handset) : List PixelRect := if h.caretShown then [h.caretRect] else []

/-- The areas that an operation writes, one after the other. Drawing, moving the cursor and taking a key take
    the caret off. -/
def areasOf (h : Handset) : Operation → List PixelRect
  | .clearScreen | .restart => [.fullScreen]
  | .fill area | .clear area | .invert area => h.caretAreas ++ [area]
  | .setCursor _ _ | .hideCaret => h.caretAreas
  | .takeKey => if h.buffer.isEmpty then [] else h.caretAreas
  | .blink => [h.caretRect]
  | .keyDown _ | .keyUp _ | .takeDirty => []

/-- A handset and what was written to it. -/
structure Recording where
  handset : Handset
  /-- The areas written since the dirty area was last taken or the handset was switched off and on, which
      writes the whole screen. -/
  writes : List PixelRect
  /-- The screens since the dirty area was last taken. -/
  screens : List Bitmap

namespace Recording

/-- The recording of a handset that was never switched on. -/
def blank : Recording := ⟨.blank, [], [.blank]⟩

def perform (r : Recording) (o : Operation) : Recording :=
  let later := r.handset.perform o
  match o with
  | .takeDirty => ⟨later, [], [later.bitmap]⟩
  | .restart => ⟨later, r.handset.areasOf o, r.screens ++ [later.bitmap]⟩
  | _ => ⟨later, r.writes ++ r.handset.areasOf o, r.screens ++ [later.bitmap]⟩

def performAll (r : Recording) (os : List Operation) : Recording := os.foldl perform r

end Recording

theorem dirty_markDirty (h : Handset) (area : PixelRect) :
    (h.markDirty area).dirty = PixelRect.widen h.dirty area := by
  unfold markDirty PixelRect.widen
  split <;> rfl

theorem dirty_write (h : Handset) (area : PixelRect) (f : Bool → Bool) :
    (h.write area f).dirty = PixelRect.widen h.dirty area :=
  dirty_markDirty _ area

theorem dirty_hideCaret (h : Handset) : h.hideCaret.dirty = h.caretAreas.foldl PixelRect.widen h.dirty := by
  unfold hideCaret caretAreas
  split
  · exact dirty_write h _ _
  · rfl

theorem dirty_draw (h : Handset) (area : PixelRect) (f : Bool → Bool) :
    (h.hideCaret.write area f).dirty = (h.caretAreas ++ [area]).foldl PixelRect.widen h.dirty := by
  rw [dirty_write, dirty_hideCaret, List.foldl_append]
  rfl

theorem dirty_takeKey (h : Handset) :
    h.takeKey.2.dirty = (if h.buffer.isEmpty then [] else h.caretAreas).foldl PixelRect.widen h.dirty := by
  unfold takeKey
  cases waiting : h.buffer with
  | nil => rfl
  | cons key rest => exact dirty_hideCaret { h with buffer := rest }

theorem dirty_restart (h : Handset) : h.restart.dirty = (h.areasOf .restart).foldl PixelRect.widen none :=
  dirty_markDirty _ _

/-- An operation marks all that it writes, and nothing else. -/
theorem dirty_perform (drops : o ≠ .takeDirty) (starts : o ≠ .restart) :
    (h.perform o).dirty = (h.areasOf o).foldl PixelRect.widen h.dirty := by
  cases o with
  | takeDirty => exact absurd rfl drops
  | restart => exact absurd rfl starts
  | clearScreen => exact dirty_markDirty _ _
  | fill area | clear area | invert area => exact dirty_draw h area _
  | setCursor x y | hideCaret => exact dirty_hideCaret h
  | takeKey => exact dirty_takeKey h
  | blink => exact dirty_write h _ _
  | keyDown key | keyUp key => rfl

theorem Marks.perform (drops : o ≠ .takeDirty) : Marks h (h.perform o) := by
  cases o with
  | takeDirty => exact absurd rfl drops
  | restart => exact .restart h
  | clearScreen => exact .clearScreen h
  | fill area => exact .fill h area
  | clear area => exact .clear h area
  | invert area => exact .invert h area
  | setCursor x y => exact .setCursor h x y
  | hideCaret => exact .hideCaret h
  | takeKey => exact .takeKey h
  | blink => exact .blink h
  | keyDown key => exact .keyDown h key
  | keyUp key => exact .keyUp h key

/-! ## Recordings -/

namespace Recording

/-- The dirty area of the handset bounds what was written, and each pixel that differs from what some screen
    has shown there is dirty. -/
structure Bounded (r : Recording) : Prop where
  dirty : PixelRect.Bounds r.writes r.handset.dirty
  changed : ∀ screen ∈ r.screens, ∀ x y, r.handset.pixel x y ≠ screen.pixel x y → r.handset.IsDirty x y

variable {r : Recording}

theorem bounded_blank : blank.Bounded := by
  refine ⟨PixelRect.bounds_nil, fun screen shown x y differs => ?_⟩
  rw [List.mem_singleton.mp shown] at differs
  exact absurd rfl differs

theorem handset_perform (r : Recording) (o : Operation) : (r.perform o).handset = r.handset.perform o := by
  cases o <;> rfl

theorem handset_performAll (r : Recording) (os : List Operation) :
    (r.performAll os).handset = r.handset.performAll os := by
  induction os generalizing r with
  | nil => rfl
  | cons o rest ih =>
      rw [performAll, List.foldl_cons]
      exact (ih (r.perform o)).trans (congrArg (·.performAll rest) (r.handset_perform o))

/-- What an earlier screen showed is dirty if it was changed before or is changed now. -/
theorem Bounded.changed_later {later : Handset} (bounded : r.Bounded) (marks : Marks r.handset later) :
    ∀ screen ∈ r.screens ++ [later.bitmap], ∀ x y, later.pixel x y ≠ screen.pixel x y →
      later.IsDirty x y := by
  intro screen shown x y differs
  rcases List.mem_append.mp shown with before | now
  · by_cases same : r.handset.pixel x y = screen.pixel x y
    · rw [← same] at differs
      exact marks.marked differs
    · exact marks.grows (bounded.changed screen before x y same)
  · rw [List.mem_singleton.mp now] at differs
    exact absurd rfl differs

theorem Bounded.perform (bounded : r.Bounded) (o : Operation) : (r.perform o).Bounded := by
  by_cases drops : o = .takeDirty
  · subst drops
    refine ⟨PixelRect.bounds_nil, fun screen shown x y differs => ?_⟩
    rw [List.mem_singleton.mp shown] at differs
    exact absurd rfl differs
  · have changed := bounded.changed_later (Marks.perform (h := r.handset) drops)
    by_cases starts : o = .restart
    · subst starts
      refine ⟨?_, changed⟩
      have restarted := PixelRect.bounds_foldl_widen PixelRect.bounds_nil (r.handset.areasOf .restart)
      rwa [← dirty_restart] at restarted
    · have recorded : r.perform o = ⟨r.handset.perform o, r.writes ++ r.handset.areasOf o,
          r.screens ++ [(r.handset.perform o).bitmap]⟩ := by
        cases o with
        | takeDirty => exact absurd rfl drops
        | restart => exact absurd rfl starts
        | _ => rfl
      rw [recorded]
      refine ⟨?_, changed⟩
      have widened := PixelRect.bounds_foldl_widen bounded.dirty (r.handset.areasOf o)
      rwa [← dirty_perform drops starts] at widened

theorem Bounded.performAll (bounded : r.Bounded) (os : List Operation) : (r.performAll os).Bounded := by
  induction os generalizing r with
  | nil => exact bounded
  | cons o rest ih => exact ih (bounded.perform o)

end Recording

theorem dirty_foldl_markDirty (h : Handset) (areas : List PixelRect) :
    (areas.foldl markDirty h).dirty = areas.foldl PixelRect.widen h.dirty := by
  induction areas generalizing h with
  | nil => rfl
  | cons area rest ih => rw [List.foldl_cons, ih, dirty_markDirty, List.foldl_cons]

/-- After any operations nothing is dirty exactly if no area with pixels was written since the dirty area was
    last taken or the handset was switched off and on; otherwise the dirty area is the smallest rectangle around
    those areas, on the screen or not, and would be the same had they been marked in another order. Every pixel
    that has changed on the screen since the area was last taken lies in it. -/
theorem dirty_bounds_writes (os : List Operation) :
    let r := Recording.blank.performAll os
    let h := blank.performAll os
    r.handset = h ∧
      (h.dirty = none ↔ ∀ area ∈ r.writes, area.isEmpty = true) ∧
      (∀ box, h.dirty = some box ↔ box.IsBoundingBox r.writes) ∧
      (∀ order : List PixelRect, order.Perm r.writes →
        (order.foldl markDirty { h with dirty := none }).dirty = h.dirty) ∧
      ∀ screen ∈ r.screens, ∀ x y, h.pixel x y ≠ screen.pixel x y →
        ∃ area, h.dirty = some area ∧ area.contains x y = true := by
  intro r h
  have same : r.handset = h := Recording.blank.handset_performAll os
  obtain ⟨dirty, changed⟩ := Recording.bounded_blank.performAll os
  change PixelRect.Bounds r.writes r.handset.dirty at dirty
  rw [same] at dirty
  have unique (box : Option PixelRect) (bounds : PixelRect.Bounds r.writes box) : h.dirty = box :=
    PixelRect.bounds_unique dirty bounds fun _ => Iff.rfl
  refine ⟨same, ⟨fun clean => ?_, unique none⟩, fun box => ⟨fun marked => ?_, unique (some box)⟩,
    fun order permuted => ?_, fun screen shown x y differs => ?_⟩
  · rwa [clean] at dirty
  · rwa [marked] at dirty
  · have marked := PixelRect.bounds_foldl_widen PixelRect.bounds_nil order
    rw [dirty_foldl_markDirty]
    exact PixelRect.bounds_unique marked dirty fun _ => permuted.mem_iff
  · rw [← same] at differs ⊢
    exact (changed screen shown x y differs).2

example : (blank.performAll [.fill ⟨0, 0, 4, 4⟩, .invert ⟨10, 20, 12, 22⟩, .fill ⟨90, 9, 80, 99⟩]).dirty =
    some ⟨0, 0, 12, 22⟩ := by decide

end Handset

end PocketBasic
