import PocketBasic.Proofs.Screen.Redraw
import PocketBasic.View.Bars

/-! # What drawing leaves alone

A view draws into its own part of the screen. The cells of any other part are what they were.
-/

namespace PocketBasic.Screen

variable {s other third : Screen} {row col row' col' i : Nat}

/-- The screen has such a place. -/
def Contains (s : Screen) (row col : Nat) : Prop := 1 ≤ row ∧ row ≤ s.height ∧ 1 ≤ col ∧ col ≤ s.width

theorem index?_eq_some_iff :
    s.index? row col = some i ↔ s.Contains row col ∧ (row - 1) * s.width + (col - 1) = i := by
  unfold index? Contains
  split
  · rename_i inside
    simp [inside]
  · rename_i outside
    simp [outside]

/-- Different places have different cells. -/
theorem index?_inj (first : s.index? row col = some i) (second : s.index? row' col' = some i) :
    row = row' ∧ col = col' := by
  obtain ⟨⟨above, _, left, right⟩, rfl⟩ := index?_eq_some_iff.mp first
  obtain ⟨⟨above', _, left', right'⟩, same⟩ := index?_eq_some_iff.mp second
  have rows := congrArg (· / s.width) same
  have cols := congrArg (· % s.width) same
  simp only [Nat.mul_comm _ s.width, Nat.mul_add_div (show 0 < s.width by omega), Nat.mul_add_mod,
    Nat.div_eq_of_lt (show col - 1 < s.width by omega), Nat.div_eq_of_lt (show col' - 1 < s.width by omega),
    Nat.mod_eq_of_lt (show col - 1 < s.width by omega), Nat.mod_eq_of_lt (show col' - 1 < s.width by omega)]
    at rows cols
  omega

theorem get?_eq_some {cell : Cell} :
    s.get? row col = some cell ↔ ∃ i, s.index? row col = some i ∧ s.cell? i = some cell :=
  Option.bind_eq_some_iff

/-- The places of a row. -/
def inRow (n : Nat) : Nat → Nat → Prop := fun row _ => row = n

/-- No place at all; what spares these leaves the size of a screen. -/
def nowhere : Nat → Nat → Prop := fun _ _ => False

/-- The screen has been drawn on, but not at these places. -/
structure Spares (places : Nat → Nat → Prop) (s other : Screen) : Prop where
  width : other.width = s.width
  height : other.height = s.height
  known : ∀ i, other.known? i = s.known? i
  cells : ∀ row col, places row col → other.get? row col = s.get? row col

variable {places : Nat → Nat → Prop} {fg bg : Color} {ch : Char}

theorem index_lt (inside : s.Contains row col) : (row - 1) * s.width + (col - 1) < s.width * s.height := by
  obtain ⟨above, below, left, right⟩ := inside
  have whole := Nat.mul_le_mul_left s.width below
  obtain ⟨r, rfl⟩ := Nat.exists_eq_add_of_le' above
  rw [Nat.mul_succ, Nat.mul_comm] at whole
  rw [Nat.add_sub_cancel]
  omega

theorem get?_set (inside : s.Contains row col) :
    (s.set row col ch fg bg).get? row col = some ⟨ch, fg, bg⟩ := by
  have placed : s.index? row col = some ((row - 1) * s.width + (col - 1)) := if_pos inside
  rw [set, placed]
  change (s.index? row col).bind (fun j => (s.back.setIfInBounds _ ⟨ch, fg, bg⟩)[j]?) = _
  rw [placed]
  exact Vector.getElem?_setIfInBounds_self_of_lt (index_lt inside)

namespace Spares

theorem refl (s : Screen) : Spares places s s := ⟨rfl, rfl, fun _ => rfl, fun _ _ _ => rfl⟩

theorem trans (first : Spares places s other) (second : Spares places other third) : Spares places s third :=
  ⟨second.width.trans first.width, second.height.trans first.height,
    fun i => (second.known i).trans (first.known i),
    fun row col spared => (second.cells row col spared).trans (first.cells row col spared)⟩

theorem of_drawn (drawn : s.Drawn other) : Spares nowhere s other :=
  ⟨drawn.width, drawn.height, drawn.known, fun _ _ => False.elim⟩

theorem contains (spares : Spares places s other) (inside : s.Contains row col) : other.Contains row col := by
  rw [Contains, spares.width, spares.height]
  exact inside

theorem set (beside : ¬places row col) : Spares places s (s.set row col ch fg bg) := by
  unfold Screen.set
  split
  · rename_i i drawn
    refine ⟨rfl, rfl, fun _ => rfl, fun r c spared => ?_⟩
    change (s.index? r c).bind (fun j => (s.back.setIfInBounds i _)[j]?) = (s.index? r c).bind fun j => s.back[j]?
    cases placed : s.index? r c with
    | none => rfl
    | some j =>
        have apart : i ≠ j := by
          rintro rfl
          obtain ⟨rfl, rfl⟩ := index?_inj drawn placed
          exact beside spared
        exact Vector.getElem?_setIfInBounds_ne apart
  · exact refl s

theorem foldl {α : Type} {f : Screen → α → Screen} {items : List α}
    (step : ∀ (s : Screen) a, a ∈ items → Spares places s (f s a)) : Spares places s (items.foldl f s) := by
  induction items generalizing s with
  | nil => exact refl s
  | cons a rest ih =>
      exact (step s a List.mem_cons_self).trans (ih fun s b member => step s b (List.mem_cons_of_mem a member))

theorem fill {width height : Nat}
    (beside : ∀ r c, row ≤ r → r < row + height → col ≤ c → c < col + width → ¬places r c) :
    Spares places s (s.fill row col width height ch fg bg) := by
  refine foldl fun s r member => foldl fun s c inside => set (beside r c ?_ ?_ ?_ ?_)
  all_goals
    unfold span at member inside
    rw [List.mem_range'_1] at member inside
    omega

theorem fillRow {width : Nat} (beside : ∀ c, ¬places row c) : Spares places s (s.fill row col width 1 ch fg bg) := by
  refine fill fun r c above below _ _ => ?_
  obtain rfl : r = row := by omega
  exact beside c

theorem box {width height : Nat}
    (beside : ∀ r c, row ≤ r → r < row + height → col ≤ c → c < col + width → ¬places r c) :
    Spares places s (s.box row col width height fg bg) := by
  unfold Screen.box
  split
  · exact refl s
  · have side {s : Screen} {row' col' width' height' : Nat} {ch : Char} (above : row ≤ row')
        (below : row' + height' ≤ row + height) (left : col ≤ col') (right : col' + width' ≤ col + width) :
        Spares places s (s.fill row' col' width' height' ch fg bg) :=
      fill fun r c _ _ _ _ => beside r c (by omega) (by omega) (by omega) (by omega)
    have corner {s : Screen} {row' col' : Nat} {ch : Char} (above : row ≤ row') (below : row' < row + height)
        (left : col ≤ col') (right : col' < col + width) : Spares places s (s.set row' col' ch fg bg) :=
      set (beside row' col' above below left right)
    refine ((((((((side ?_ ?_ ?_ ?_).trans (side ?_ ?_ ?_ ?_)).trans (side ?_ ?_ ?_ ?_)).trans (side ?_ ?_ ?_ ?_)).trans
      (side ?_ ?_ ?_ ?_)).trans (corner ?_ ?_ ?_ ?_)).trans (corner ?_ ?_ ?_ ?_)).trans (corner ?_ ?_ ?_ ?_)).trans
      (corner ?_ ?_ ?_ ?_)
    all_goals omega

theorem writeChars {text : List Char} (beside : ∀ c, col ≤ c → ¬places row c) :
    Spares places s (s.writeChars row col fg bg text) := by
  induction text generalizing s col with
  | nil => exact refl s
  | cons c rest ih =>
      unfold Screen.writeChars
      split
      · exact (set (beside col (Nat.le_refl col))).trans (ih fun c further => beside c (by omega))
      · exact refl s

end Spares

end PocketBasic.Screen
