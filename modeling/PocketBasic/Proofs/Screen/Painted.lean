import PocketBasic.Proofs.Screen.Spared

/-! # Pictures

What a drawing does to a screen is said by a picture: the cells that it puts onto places, whatever was there. Drawings
that follow each other paint their pictures over each other, so the picture of a view is put together from the
pictures of its parts.
-/

namespace PocketBasic

theorem CellRect.contains_iff {r : CellRect} {row col : Nat} :
    r.contains row col = true ↔ r.y ≤ row ∧ row < r.y + r.height ∧ r.x ≤ col ∧ col < r.x + r.width := by
  simp only [contains, Bool.and_eq_true, decide_eq_true_eq, and_assoc]

/-- The cells that are drawn, by row and column, and nothing where nothing is drawn. -/
def Picture := Nat → Nat → Option Cell

namespace Picture

def nothing : Picture := fun _ _ => none

/-- A picture on top of another one. -/
def onto (top bottom : Picture) : Picture := fun row col => (top row col).or (bottom row col)

def dot (row col : Nat) (cell : Cell) : Picture :=
  fun r c => if r = row ∧ c = col then some cell else none

/-- Cells of a row, from a column on. -/
def line (row col : Nat) (cells : List Cell) : Picture :=
  fun r c => if r = row ∧ col ≤ c then cells[c - col]? else none

/-- The cells of some rows and columns. -/
def block (rows cols : List Nat) (cell : Nat → Nat → Cell) : Picture :=
  fun r c => if r ∈ rows ∧ c ∈ cols then some (cell r c) else none

/-- The pictures of some items, each on top of those before it. -/
def layers {α : Type} (p : α → Picture) : List α → Picture
  | [] => nothing
  | a :: rest => (layers p rest).onto (p a)

variable {α : Type} {p : α → Picture} {items : List α} {top bottom : Picture} {row col : Nat}

theorem onto_eq_none_iff : top.onto bottom row col = none ↔ top row col = none ∧ bottom row col = none := by
  simp [onto]

theorem layers_eq_none_iff : layers p items row col = none ↔ ∀ a ∈ items, p a row col = none := by
  induction items with
  | nil => simp [layers, nothing]
  | cons a rest ih => simp [layers, onto_eq_none_iff, ih, and_comm]

/-- Where only one of the items draws, its picture is seen. -/
theorem layers_of_mem {b : α} (member : b ∈ items) (apart : ∀ a ∈ items, a ≠ b → p a row col = none) :
    layers p items row col = p b row col := by
  induction items with
  | nil => cases member
  | cons a rest ih =>
      have later : ∀ a ∈ rest, a ≠ b → p a row col = none := fun a inside => apart a (List.mem_cons_of_mem _ inside)
      simp only [layers, onto]
      by_cases again : b ∈ rest
      · rw [ih again later]
        by_cases same : a = b
        · simp [same]
        · simp [apart a List.mem_cons_self same]
      · obtain rfl : b = a := (List.mem_cons.mp member).resolve_right again
        have others : layers p rest row col = none :=
          layers_eq_none_iff.mpr fun a inside => later a inside fun same => again (same ▸ inside)
        simp [others]

/-- Items that draw in rows of their own, one below the other. -/
theorem layers_zipIdx {p : α → Nat → Picture} (level : ∀ a y r c, r ≠ y → p a y r c = none) (start : Nat) :
    layers (fun entry => p entry.1 entry.2) (items.zipIdx start) row col =
      if start ≤ row then (items[row - start]?).bind fun a => p a row row col else none := by
  induction items generalizing start with
  | nil => simp [layers, nothing]
  | cons a rest ih =>
      rw [List.zipIdx_cons, layers, onto, ih]
      by_cases here : row = start
      · have before : ¬start + 1 ≤ start := by omega
        simp [here, before]
      · rw [level a start row col here, Option.or_none]
        by_cases below : start ≤ row
        · have later : start + 1 ≤ row := by omega
          have index : row - start = row - (start + 1) + 1 := by omega
          rw [if_pos later, if_pos below, index, List.getElem?_cons_succ]
        · have above : ¬start + 1 ≤ row := by omega
          rw [if_neg above, if_neg below]

/-! ## Places -/

/-- On a screen of such a size, nothing is drawn beside a rectangle. -/
def Within (p : Picture) (width height : Nat) (bounds : CellRect) : Prop :=
  ∀ row col, 1 ≤ row → row ≤ height → 1 ≤ col → col ≤ width → bounds.contains row col = false → p row col = none

section Within

variable {width height : Nat} {bounds : CellRect}

theorem within_nothing : nothing.Within width height bounds := fun _ _ _ _ _ _ _ => rfl

theorem within_onto_iff :
    (top.onto bottom).Within width height bounds ↔
      top.Within width height bounds ∧ bottom.Within width height bounds := by
  simp only [Within, onto_eq_none_iff, imp_and, forall_and]

theorem within_layers_iff :
    (layers p items).Within width height bounds ↔ ∀ a ∈ items, (p a).Within width height bounds := by
  simp only [Within, layers_eq_none_iff]
  constructor
  · intro all a member row col above below left right beside
    exact all row col above below left right beside a member
  · intro each row col above below left right beside a member
    exact each a member row col above below left right beside

theorem within_line_iff {cells : List Cell} :
    (line row col cells).Within width height bounds ↔
      ∀ c, col ≤ c → c < col + cells.length → 1 ≤ row → row ≤ height → 1 ≤ c → c ≤ width →
        bounds.contains row c = true := by
  constructor
  · intro within c behind before above below left right
    refine Bool.eq_true_of_not_eq_false fun beside => ?_
    have undrawn := within row c above below left right beside
    simp only [line, true_and, behind, if_true, List.getElem?_eq_none_iff] at undrawn
    omega
  · intro inside r c above below left right beside
    unfold line
    split
    · rename_i here
      obtain ⟨rfl, behind⟩ := here
      rw [List.getElem?_eq_none_iff]
      refine Nat.le_of_not_lt fun before => ?_
      rw [inside c behind (by omega) above below left right] at beside
      cases beside
    · rfl

theorem within_block {rows cols : List Nat} {cell : Nat → Nat → Cell}
    (inside : ∀ r ∈ rows, ∀ c ∈ cols, bounds.contains r c = true) :
    (block rows cols cell).Within width height bounds := by
  intro r c _ _ _ _ beside
  refine if_neg fun here => ?_
  rw [inside r here.1 c here.2] at beside
  cases beside

end Within

theorem layers_dots (row : Nat) (cols : List Nat) (cell : Nat → Nat → Cell) :
    layers (fun c => dot row c (cell row c)) cols = block [row] cols cell := by
  funext r c
  unfold block
  split
  · rename_i inside
    obtain rfl : r = row := List.mem_singleton.mp inside.1
    rw [layers_of_mem inside.2 fun a _ other => by simp [dot, Ne.symm other]]
    simp [dot]
  · rename_i outside
    rw [layers_eq_none_iff]
    intro a member
    rw [dot, if_neg]
    rintro ⟨rfl, rfl⟩
    exact outside ⟨List.mem_singleton_self r, member⟩

theorem layers_rows (rows cols : List Nat) (cell : Nat → Nat → Cell) :
    layers (fun r => layers (fun c => dot r c (cell r c)) cols) rows = block rows cols cell := by
  simp only [layers_dots]
  funext r c
  by_cases here : r ∈ rows
  · rw [layers_of_mem here fun a _ other => by simp [block, Ne.symm other]]
    simp [block, here]
  · rw [block, if_neg fun inside => here inside.1, layers_eq_none_iff]
    intro a member
    rw [block, if_neg]
    rintro ⟨same, -⟩
    obtain rfl := List.mem_singleton.mp same
    exact here member

end Picture

namespace Screen

open Picture

/-- The screen with a picture painted on it. -/
structure Painted (p : Picture) (s other : Screen) : Prop where
  width : other.width = s.width
  height : other.height = s.height
  cells : ∀ row col, other.get? row col = (s.get? row col).map fun old => (p row col).getD old

variable {p q : Picture} {s other third : Screen} {row col i : Nat} {ch : Char} {fg bg : Color}

theorem get?_eq_none (outside : ¬s.Contains row col) : s.get? row col = none := by
  have unplaced : s.index? row col = none := if_neg outside
  rw [get?, unplaced]
  rfl

theorem exists_get? (inside : s.Contains row col) : ∃ cell, s.get? row col = some cell := by
  have placed : s.index? row col = some ((row - 1) * s.width + (col - 1)) := if_pos inside
  rw [get?, placed]
  exact ⟨_, Vector.getElem?_eq_getElem (index_lt inside)⟩

namespace Painted

theorem refl (s : Screen) : Painted nothing s s := ⟨rfl, rfl, fun row col => by simp [nothing]⟩

theorem trans (first : Painted p s other) (second : Painted q other third) : Painted (q.onto p) s third where
  width := second.width.trans first.width
  height := second.height.trans first.height
  cells row col := by
    rw [second.cells, first.cells]
    cases s.get? row col with
    | none => rfl
    | some old => cases drawn : q row col <;> simp [onto, drawn]

theorem set : Painted (dot row col ⟨ch, fg, bg⟩) s (s.set row col ch fg bg) := by
  have spares : Spares (fun r c => ¬(r = row ∧ c = col)) s (s.set row col ch fg bg) :=
    .set fun beside => beside ⟨rfl, rfl⟩
  refine ⟨spares.width, spares.height, fun r c => ?_⟩
  by_cases here : r = row ∧ c = col
  · obtain ⟨rfl, rfl⟩ := here
    by_cases inside : s.Contains r c
    · obtain ⟨old, there⟩ := exists_get? inside
      simp [get?_set inside, there, dot]
    · have after : ¬(s.set r c ch fg bg).Contains r c := by
        rwa [Contains, spares.width, spares.height]
      simp [get?_eq_none inside, get?_eq_none after]
  · rw [spares.cells r c here]
    simp [dot, here]

theorem foldl {α : Type} {f : Screen → α → Screen} {p : α → Picture} {items : List α}
    (step : ∀ (s : Screen) a, a ∈ items → Painted (p a) s (f s a)) : Painted (layers p items) s (items.foldl f s) := by
  induction items generalizing s with
  | nil => exact refl s
  | cons a rest ih =>
      exact (step s a List.mem_cons_self).trans (ih fun s b member => step s b (List.mem_cons_of_mem a member))

/-- Pictures that are the same on the screen are as good as each other. -/
theorem congr (painted : Painted p s other) (same : ∀ row col, s.Contains row col → p row col = q row col) :
    Painted q s other := by
  refine ⟨painted.width, painted.height, fun row col => ?_⟩
  rw [painted.cells]
  by_cases inside : s.Contains row col
  · rw [same row col inside]
  · simp [get?_eq_none inside]

theorem setCursor (painted : Painted p s other) : Painted p s (other.setCursor row col) :=
  ⟨painted.width, painted.height, painted.cells⟩

theorem of_unseen (unseen : ∀ row col, s.Contains row col → p row col = none) : Painted p s s :=
  (refl s).congr fun row col inside => (unseen row col inside).symm

theorem block (rows cols : List Nat) (cell : Nat → Nat → Cell) :
    Painted (block rows cols cell) s
      (rows.foldl (fun s r => cols.foldl (fun s c => s.set r c (cell r c).ch (cell r c).fg (cell r c).bg) s) s) := by
  rw [← layers_rows]
  exact foldl fun s r _ => foldl fun s c _ => set

theorem writeChars (text : List Char) :
    Painted (line row col (text.map (⟨·, fg, bg⟩))) s (s.writeChars row col fg bg text) := by
  induction text generalizing s col with
  | nil => exact .of_unseen fun r c _ => by simp [line]
  | cons ch rest ih =>
      unfold Screen.writeChars
      split
      · have split : (line row (col + 1) (rest.map (⟨·, fg, bg⟩))).onto (dot row col ⟨ch, fg, bg⟩) =
            line row col ((ch :: rest).map (⟨·, fg, bg⟩)) := by
          funext r c
          by_cases here : r = row ∧ c = col
          · obtain ⟨rfl, rfl⟩ := here
            have before : ¬c + 1 ≤ c := by omega
            simp [onto, line, dot, before]
          · by_cases behind : r = row ∧ col + 1 ≤ c
            · have later : c - col = c - (col + 1) + 1 := by omega
              have reached : col ≤ c ∧ c ≠ col := by omega
              simp [onto, line, dot, behind, later, reached]
            · have unreached : ¬(r = row ∧ col ≤ c) := by omega
              simp only [onto, line, dot, if_neg here, if_neg behind, if_neg unreached, Option.or_none]
        exact split ▸ set.trans ih
      · refine .of_unseen fun r c inside => ?_
        have before : ¬(r = row ∧ col ≤ c) := by
          have := inside.2.2.2
          omega
        rw [line, if_neg before]

end Painted

/-- Whatever a place shows, there is a screen on which it shows something else. -/
theorem exists_other {width height : Nat} (above : 1 ≤ row) (below : row ≤ height) (left : 1 ≤ col)
    (right : col ≤ width) (cell : Cell) :
    ∃ s : Screen, s.width = width ∧ s.height = height ∧ ∃ old, s.get? row col = some old ∧ old ≠ cell := by
  let ch := if cell.ch = ' ' then '.' else ' '
  have spared : Spares nowhere (Screen.blank width height) ((Screen.blank width height).set row col ch .black .black) :=
    .set id
  refine ⟨_, spared.width, spared.height, ⟨ch, .black, .black⟩, get?_set ⟨above, below, left, right⟩, fun same => ?_⟩
  have same : ch = cell.ch := congrArg Cell.ch same
  by_cases blank : cell.ch = ' '
  · simp [ch, blank] at same
  · simp only [ch, if_neg blank] at same
    exact blank same.symm

/-- A frame and a picture on top of it leave the cells beside a rectangle alone on all screens of a size exactly if the
    frame does and the picture is within. -/
theorem unchanged_iff_within {width height : Nat} {bounds : CellRect} {draw : Screen → Screen}
    (drawn : ∀ s : Screen, ∃ framed, Spares (fun row col => bounds.contains row col = false) s framed ∧
      Painted p framed (draw s)) :
    (∀ s : Screen, s.width = width → s.height = height → ∀ row col, bounds.contains row col = false →
        (draw s).get? row col = s.get? row col) ↔ p.Within width height bounds := by
  constructor
  · intro unchanged row col above below left right beside
    refine Option.eq_none_iff_forall_ne_some.mpr fun cell seen => ?_
    obtain ⟨s, sameWidth, sameHeight, old, before, other⟩ := exists_other above below left right cell
    obtain ⟨framed, spares, painted⟩ := drawn s
    have after := unchanged s sameWidth sameHeight row col beside
    rw [painted.cells, spares.cells row col beside, before, seen] at after
    exact other (Option.some.inj after).symm
  · intro within s sameWidth sameHeight row col beside
    obtain ⟨framed, spares, painted⟩ := drawn s
    rw [painted.cells, spares.cells row col beside]
    by_cases inside : s.Contains row col
    · obtain ⟨above, below, left, right⟩ := inside
      simp [within row col above (sameHeight ▸ below) left (sameWidth ▸ right) beside]
    · simp [get?_eq_none inside]

end Screen

end PocketBasic
