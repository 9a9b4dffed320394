import Mathlib.Algebra.BigOperators.Group.List.Basic
import Mathlib.Algebra.Order.Ring.Nat
import Mathlib.Data.List.Chain
import PocketBasic.CellRect

/-! # Splitting a rectangle

The parts of a rectangle that is split lie one behind the other and fill it, whether its items have room or not. If
they have, a fixed item gets what it asks for and a share is its part of what is left, rounded down; the last share
makes up for the rounding. All of this can be computed with numbers of 16 bits: as long as the rectangle itself and
the sum of the weights are such numbers, so is everything on the way.
-/

namespace PocketBasic

/-- The axis on which the parts do not differ. -/
def Axis.cross : Axis → Axis
  | .vertical => .horizontal
  | .horizontal => .vertical

namespace Extent

/-- The cells that the fixed items ask for. -/
def fixedSum (items : List Extent) : Nat := (items.map fixedCells).sum

/-- The weights of the shares, taken together. -/
def weightSum (items : List Extent) : Nat := (items.map flexWeight).sum

/-- There is a share among the items. -/
def anyFlex (items : List Extent) : Bool := items.any isFlex

/-- The part of the free cells that goes to a weight, rounded down. -/
def shareOf (space weight w : Nat) : Nat := if weight = 0 then 0 else space * w / weight

end Extent

namespace CellRect

/-- The first cell on an axis. -/
def start (r : CellRect) : Axis → Nat
  | .vertical => r.y
  | .horizontal => r.x

/-- The number of cells on an axis. -/
def extent (r : CellRect) : Axis → Nat
  | .vertical => r.height
  | .horizontal => r.width

/-- The part of a rectangle that starts at a cell of the axis and has so many of them. -/
def slice (bounds : CellRect) (axis : Axis) (start length : Nat) : CellRect :=
  match axis with
  | .vertical => ⟨bounds.x, start, bounds.width, length⟩
  | .horizontal => ⟨start, bounds.y, length, bounds.height⟩

/-- The parts fill the bounds along the axis as the items ask for. -/
structure Tiles (bounds : CellRect) (axis : Axis) (items : List Extent) (parts : List CellRect) : Prop where
  count : parts.length = items.length
  first : ∀ part ∈ parts.head?, part.start axis = bounds.start axis
  consecutive : parts.IsChain fun part next => next.start axis = part.start axis + part.extent axis
  across : ∀ part ∈ parts,
    part.start axis.cross = bounds.start axis.cross ∧ part.extent axis.cross = bounds.extent axis.cross
  inside : ∀ part ∈ parts,
    bounds.start axis ≤ part.start axis ∧
      part.start axis + part.extent axis ≤ bounds.start axis + bounds.extent axis
  total : (parts.map (·.extent axis)).sum =
    if Extent.anyFlex items then bounds.extent axis else min (bounds.extent axis) (Extent.fixedSum items)
  /-- A fixed item has its size, if all of them fit. -/
  fixed : Extent.fixedSum items ≤ bounds.extent axis →
    ∀ (i n : Nat), items[i]? = some (.fixed n) → parts[i]?.map (·.extent axis) = some n
  /-- A share behind which there is another one is rounded down. -/
  shares : Extent.fixedSum items ≤ bounds.extent axis →
    ∀ (i w : Nat), items[i]? = some (.flex w) → Extent.anyFlex (items.drop (i + 1)) = true →
      parts[i]?.map (·.extent axis) =
        some (Extent.shareOf (bounds.extent axis - Extent.fixedSum items) (Extent.weightSum items) w)

/-! ## Numbers of so many bits -/

/-- A number, if it has no more than so many bits. -/
def word? (bits n : Nat) : Option Nat := if n < 2 ^ bits then some n else none

/-- The length of the first of some items and the share it takes, in numbers of 16 bits. A share is computed with
    32 bits before it is narrowed. -/
def length16? (total space weight offset used : Nat) (item : Extent) (behind : List Extent) : Option (Nat × Nat) :=
  let left := total - offset
  match item with
  | .fixed n => some (min n left, 0)
  | .flex w =>
      if Extent.anyFlex behind = false then some (min (space - used) left, 0)
      else if weight = 0 then some (0, 0)
      else do
        let share ← word? 16 ((← word? 32 (space * w)) / weight)
        some (min share left, share)

/-- The parts for the items, in numbers of 16 bits. `none` if one of the numbers has more. -/
def parts16? (bounds : CellRect) (axis : Axis) (space weight offset used : Nat) :
    List Extent → Option (List CellRect)
  | [] => some []
  | item :: items => do
      let (length, share) ← length16? (bounds.extent axis) space weight offset used item items
      let start ← word? 16 (bounds.start axis + offset)
      let rest ← parts16? bounds axis space weight (← word? 16 (offset + length)) (← word? 16 (used + share)) items
      some (bounds.slice axis start length :: rest)

/-- The parts of a rectangle in numbers of 16 bits. The sum of the fixed items goes no further than the largest of
    these numbers. -/
def split16? (bounds : CellRect) (axis : Axis) (items : List Extent) : Option (List CellRect) := do
  let fixed := items.foldl (fun sum item => min (sum + item.fixedCells) 65535) 0
  let weight ← items.foldlM (fun sum item => word? 16 (sum + item.flexWeight)) 0
  parts16? bounds axis (bounds.extent axis - fixed) weight 0 0 items

end CellRect

namespace Extent

variable {total space weight offset used w n : Nat} {item : Extent} {items : List Extent}

@[simp] theorem fixedSum_cons (item : Extent) (items : List Extent) :
    fixedSum (item :: items) = item.fixedCells + fixedSum items := rfl

@[simp] theorem weightSum_cons (item : Extent) (items : List Extent) :
    weightSum (item :: items) = item.flexWeight + weightSum items := rfl

@[simp] theorem anyFlex_cons (item : Extent) (items : List Extent) :
    anyFlex (item :: items) = (item.isFlex || anyFlex items) := rfl

/-! ## The lengths -/

/-- The length of the first of some items and the share it takes. -/
def firstLength (total space weight offset used : Nat) (item : Extent) (behind : List Extent) : Nat × Nat :=
  match item with
  | .fixed n => (min n (total - offset), 0)
  | .flex w =>
      if anyFlex behind then (min (shareOf space weight w) (total - offset), shareOf space weight w)
      else (min (space - used) (total - offset), 0)

theorem lengths_cons (total space weight offset used : Nat) (item : Extent) (items : List Extent) :
    lengths total space weight offset used (item :: items) =
      let (length, share) := firstLength total space weight offset used item items
      length :: lengths total space weight (offset + length) (used + share) items := by
  cases item with
  | fixed n => rfl
  | flex w =>
      cases more : anyFlex items with
      | false =>
          simp only [firstLength, more]
          rw [anyFlex] at more
          simp [lengths, more]
      | true =>
          simp only [firstLength, more, if_true]
          rw [anyFlex] at more
          by_cases none : weight = 0 <;> simp [lengths, more, shareOf, none]

theorem firstLength_le (total space weight offset used : Nat) (item : Extent) (behind : List Extent) :
    (firstLength total space weight offset used item behind).1 ≤ total - offset := by
  unfold firstLength
  split
  · exact Nat.min_le_right _ _
  · split <;> exact Nat.min_le_right _ _

theorem firstLength_fixed : firstLength total space weight offset used (.fixed n) items = (min n (total - offset), 0) :=
  rfl

theorem firstLength_last (last : anyFlex items = false) :
    firstLength total space weight offset used (.flex w) items = (min (space - used) (total - offset), 0) := by
  simp [firstLength, last]

theorem firstLength_share (more : anyFlex items = true) :
    firstLength total space weight offset used (.flex w) items =
      (min (shareOf space weight w) (total - offset), shareOf space weight w) := by
  simp [firstLength, more]

/-- What is left of the free cells suffices for the shares to come. -/
structure Shared (space weight used : Nat) (items : List Extent) : Prop where
  taken : used ≤ space
  rest : used * weight + space * weightSum items ≤ space * weight

theorem shared_start (space : Nat) (items : List Extent) : Shared space (weightSum items) 0 items :=
  ⟨Nat.zero_le _, by rw [Nat.zero_mul, Nat.zero_add]⟩

theorem shareOf_mul_le (space weight w : Nat) : shareOf space weight w * weight ≤ space * w := by
  unfold shareOf
  split
  · rw [Nat.zero_mul]
    exact Nat.zero_le _
  · exact Nat.div_mul_le_self _ _

theorem Shared.skip (shared : Shared space weight used (item :: items)) : Shared space weight used items := by
  refine ⟨shared.taken, Nat.le_trans (Nat.add_le_add_left ?_ _) shared.rest⟩
  rw [weightSum_cons]
  exact Nat.mul_le_mul_left space (Nat.le_add_left _ _)

/-- A share that is rounded down leaves enough for those behind it. -/
theorem Shared.flex (shared : Shared space weight used (.flex w :: items)) :
    Shared space weight (used + shareOf space weight w) items := by
  have rest : (used + shareOf space weight w) * weight + space * weightSum items ≤ space * weight :=
    calc (used + shareOf space weight w) * weight + space * weightSum items
      _ = used * weight + shareOf space weight w * weight + space * weightSum items := by rw [Nat.add_mul]
      _ ≤ used * weight + space * w + space * weightSum items := by
        have share := shareOf_mul_le space weight w
        omega
      _ = used * weight + space * weightSum (.flex w :: items) := by
        rw [weightSum_cons, flexWeight, Nat.mul_add, Nat.add_assoc]
      _ ≤ space * weight := shared.rest
  refine ⟨?_, rest⟩
  rcases Nat.eq_zero_or_pos weight with rfl | some
  · exact shared.taken
  · exact Nat.le_of_mul_le_mul_right (Nat.le_of_add_right_le rest) some

/-- The first item leaves enough for the shares behind it. -/
theorem Shared.behind (shared : Shared space weight used (item :: items)) (total offset : Nat) :
    Shared space weight (used + (firstLength total space weight offset used item items).2) items := by
  cases item with
  | fixed n => exact shared.skip
  | flex w =>
      cases more : anyFlex items with
      | false =>
          rw [firstLength_last more]
          exact shared.skip
      | true =>
          rw [firstLength_share more]
          exact shared.flex

/-- The cells that items take from one of them on: what they ask for, as far as there are so many. -/
theorem sum_lengths (shared : Shared space weight used items) (offset : Nat) :
    (lengths total space weight offset used items).sum =
      min (total - offset) (fixedSum items + if anyFlex items then space - used else 0) := by
  induction items generalizing offset used with
  | nil => simp [lengths, fixedSum, anyFlex]
  | cons item items ih =>
      rw [lengths_cons, List.sum_cons, ih (shared.behind total offset)]
      cases item with
      | fixed n =>
          simp only [firstLength_fixed, fixedSum_cons, fixedCells, anyFlex_cons, isFlex, Bool.false_or, Nat.add_zero]
          omega
      | flex w =>
          simp only [fixedSum_cons, fixedCells, anyFlex_cons, isFlex, Bool.true_or, if_true]
          cases more : anyFlex items with
          | false =>
              simp only [firstLength_last more, Bool.false_eq_true, if_false]
              omega
          | true =>
              have taken := shared.flex.taken
              simp only [firstLength_share more, if_true]
              omega

/-- Items that have room get what they ask for, and the shares but the last what is theirs. -/
theorem getElem?_lengths (shared : Shared space weight used items)
    (room : offset + fixedSum items + (if anyFlex items then space - used else 0) ≤ total) (i : Nat) :
    (∀ n, items[i]? = some (.fixed n) → (lengths total space weight offset used items)[i]? = some n) ∧
      ∀ w, items[i]? = some (.flex w) → anyFlex (items.drop (i + 1)) = true →
        (lengths total space weight offset used items)[i]? = some (shareOf space weight w) := by
  induction items generalizing offset used i with
  | nil => exact ⟨nofun, nofun⟩
  | cons item items ih =>
      have behind := shared.behind total offset
      rw [lengths_cons]
      rw [fixedSum_cons, anyFlex_cons] at room
      cases item with
      | fixed n =>
          rw [fixedCells, isFlex, Bool.false_or] at room
          rw [firstLength_fixed, Nat.min_eq_left (by omega)] at behind ⊢
          cases i with
          | zero => exact ⟨fun _ same => by cases same; rfl, nofun⟩
          | succ i => exact ih shared.skip (by omega) i
      | flex w =>
          rw [fixedCells, isFlex, Bool.true_or, if_pos rfl] at room
          cases more : anyFlex items with
          | false =>
              rw [firstLength_last more, Nat.min_eq_left (by omega)] at behind ⊢
              cases i with
              | zero =>
                  refine ⟨nofun, fun _ _ last => ?_⟩
                  rw [List.drop_succ_cons, List.drop_zero, more] at last
                  cases last
              | succ i => exact ih behind (by rw [more, if_neg Bool.false_ne_true]; omega) i
          | true =>
              have taken := shared.flex.taken
              rw [firstLength_share more, Nat.min_eq_left (by omega)] at behind ⊢
              cases i with
              | zero => exact ⟨nofun, fun _ same _ => by cases same; rfl⟩
              | succ i => exact ih behind (by rw [more, if_pos rfl]; omega) i

theorem length_lengths (total space weight offset used : Nat) (items : List Extent) :
    (lengths total space weight offset used items).length = items.length := by
  induction items generalizing offset used with
  | nil => rfl
  | cons item items ih => exact congrArg (· + 1) (ih _ _)

end Extent

namespace CellRect

open Extent

variable {bounds part : CellRect} {axis : Axis} {items : List Extent} {lengths : List Nat}
  {offset space weight used : Nat}

/-! ## Parts one behind the other -/

@[simp] theorem start_slice (bounds : CellRect) (axis : Axis) (start length : Nat) :
    (bounds.slice axis start length).start axis = start := by
  cases axis <;> rfl

@[simp] theorem extent_slice (bounds : CellRect) (axis : Axis) (start length : Nat) :
    (bounds.slice axis start length).extent axis = length := by
  cases axis <;> rfl

theorem slice_cross (bounds : CellRect) (axis : Axis) (start length : Nat) :
    (bounds.slice axis start length).start axis.cross = bounds.start axis.cross ∧
      (bounds.slice axis start length).extent axis.cross = bounds.extent axis.cross := by
  cases axis <;> exact ⟨rfl, rfl⟩

theorem stack_cons (bounds : CellRect) (axis : Axis) (offset length : Nat) (lengths : List Nat) :
    bounds.stack axis offset (length :: lengths) =
      bounds.slice axis (bounds.start axis + offset) length :: bounds.stack axis (offset + length) lengths := by
  cases axis <;> rfl

theorem split_eq (bounds : CellRect) (axis : Axis) (items : List Extent) :
    bounds.split axis items = bounds.stack axis 0
      (Extent.lengths (bounds.extent axis) (bounds.extent axis - fixedSum items) (weightSum items) 0 0 items) := by
  cases axis <;> rfl

theorem map_extent_stack (bounds : CellRect) (axis : Axis) (offset : Nat) (lengths : List Nat) :
    (bounds.stack axis offset lengths).map (·.extent axis) = lengths := by
  induction lengths generalizing offset with
  | nil => rfl
  | cons length lengths ih => rw [stack_cons, List.map_cons, extent_slice, ih]

theorem length_stack (bounds : CellRect) (axis : Axis) (offset : Nat) (lengths : List Nat) :
    (bounds.stack axis offset lengths).length = lengths.length := by
  rw [← List.length_map, map_extent_stack]

theorem start_head_stack (head : part ∈ (bounds.stack axis offset lengths).head?) :
    part.start axis = bounds.start axis + offset := by
  cases lengths with
  | nil => cases head
  | cons length lengths =>
      rw [stack_cons] at head
      cases head
      exact start_slice _ _ _ _

theorem isChain_stack (bounds : CellRect) (axis : Axis) (offset : Nat) (lengths : List Nat) :
    (bounds.stack axis offset lengths).IsChain fun part next =>
      next.start axis = part.start axis + part.extent axis := by
  induction lengths generalizing offset with
  | nil => exact .nil
  | cons length lengths ih =>
      rw [stack_cons]
      refine (ih (offset + length)).cons fun next head => ?_
      rw [start_head_stack head, start_slice, extent_slice, Nat.add_assoc]

theorem cross_of_mem_stack (member : part ∈ bounds.stack axis offset lengths) :
    part.start axis.cross = bounds.start axis.cross ∧ part.extent axis.cross = bounds.extent axis.cross := by
  induction lengths generalizing offset with
  | nil => cases member
  | cons length lengths ih =>
      rw [stack_cons] at member
      rcases List.mem_cons.mp member with rfl | later
      · exact slice_cross _ _ _ _
      · exact ih later

theorem inside_of_mem_stack (room : offset + lengths.sum ≤ bounds.extent axis)
    (member : part ∈ bounds.stack axis offset lengths) :
    bounds.start axis ≤ part.start axis ∧
      part.start axis + part.extent axis ≤ bounds.start axis + bounds.extent axis := by
  induction lengths generalizing offset with
  | nil => cases member
  | cons length lengths ih =>
      rw [stack_cons] at member
      rw [List.sum_cons] at room
      rcases List.mem_cons.mp member with rfl | later
      · rw [start_slice, extent_slice]
        omega
      · exact ih (by omega) later

/-- Parts one behind the other fill the bounds if their lengths are what the items ask for. -/
theorem tiles_stack (count : lengths.length = items.length)
    (total : lengths.sum = if anyFlex items then bounds.extent axis else min (bounds.extent axis) (fixedSum items))
    (given : fixedSum items ≤ bounds.extent axis → ∀ i : Nat,
      (∀ n, items[i]? = some (.fixed n) → lengths[i]? = some n) ∧
        ∀ w, items[i]? = some (.flex w) → anyFlex (items.drop (i + 1)) = true →
          lengths[i]? = some (shareOf (bounds.extent axis - fixedSum items) (weightSum items) w)) :
    Tiles bounds axis items (bounds.stack axis 0 lengths) := by
  have entry (i : Nat) : ((bounds.stack axis 0 lengths)[i]?).map (·.extent axis) = lengths[i]? := by
    rw [← List.getElem?_map, map_extent_stack]
  have room : 0 + lengths.sum ≤ bounds.extent axis := by
    rw [total]
    split <;> omega
  exact {
    count := by rw [length_stack, count]
    first := fun _ head => start_head_stack head
    consecutive := isChain_stack bounds axis 0 lengths
    across := fun _ member => cross_of_mem_stack member
    inside := fun _ member => inside_of_mem_stack room member
    total := by rw [map_extent_stack, total]
    fixed := fun fits i n item => by rw [entry, (given fits i).1 n item]
    shares := fun fits i w item more => by rw [entry, (given fits i).2 w item more] }

/-- Splitting fills the bounds, in numbers of any size. -/
theorem tiles_split (bounds : CellRect) (axis : Axis) (items : List Extent) :
    Tiles bounds axis items (bounds.split axis items) := by
  have shared := shared_start (bounds.extent axis - fixedSum items) items
  rw [split_eq]
  refine tiles_stack (length_lengths ..) ?_ fun fits => getElem?_lengths shared ?_
  · rw [sum_lengths shared 0]
    split <;> omega
  · split <;> omega

/-! ## In numbers of 16 bits -/

theorem word?_of_lt {bits n : Nat} (small : n < 2 ^ bits) : word? bits n = some n := if_pos small

theorem length16?_eq {item : Extent} (weights : weightSum (item :: items) < 2 ^ 16) {total : Nat}
    (shared : Shared space weight used (item :: items)) (small : space < 2 ^ 16) :
    length16? total space weight offset used item items =
      some (firstLength total space weight offset used item items) := by
  cases item with
  | fixed n => rfl
  | flex w =>
      cases more : anyFlex items with
      | false => simp [length16?, more, firstLength]
      | true =>
          by_cases none : weight = 0
          · simp [length16?, more, firstLength, none, shareOf]
          · have weighed : w < 2 ^ 16 := Nat.lt_of_le_of_lt (Nat.le_add_right _ _) weights
            have product : word? 32 (space * w) = some (space * w) := word?_of_lt (by
              calc space * w
                _ ≤ (2 ^ 16 - 1) * (2 ^ 16 - 1) := Nat.mul_le_mul (by omega) (by omega)
                _ < 2 ^ 32 := by decide)
            have share : shareOf space weight w = space * w / weight := if_neg none
            have taken := shared.flex.taken
            rw [share] at taken
            have narrow : word? 16 (space * w / weight) = some (space * w / weight) := word?_of_lt (by omega)
            simp [length16?, more, firstLength, none, share, product, narrow]

/-- Nothing that is computed for the parts has too many bits. -/
theorem parts16?_eq (small : bounds.start axis + bounds.extent axis < 2 ^ 16) (free : space ≤ bounds.extent axis)
    (weights : weightSum items < 2 ^ 16) (shared : Shared space weight used items)
    (inside : offset ≤ bounds.extent axis) :
    parts16? bounds axis space weight offset used items =
      some (bounds.stack axis offset (Extent.lengths (bounds.extent axis) space weight offset used items)) := by
  induction items generalizing offset used with
  | nil => rfl
  | cons item items ih =>
      have behind := shared.behind (bounds.extent axis) offset
      have taken := behind.taken
      have within := firstLength_le (bounds.extent axis) space weight offset used item items
      have later : weightSum items < 2 ^ 16 := Nat.lt_of_le_of_lt (Nat.le_add_left _ _) weights
      have reached : offset + (firstLength (bounds.extent axis) space weight offset used item items).1 ≤
          bounds.extent axis := by omega
      have rest := ih later behind reached
      rw [lengths_cons, stack_cons, parts16?, length16?_eq weights shared (by omega)]
      simp only [bind, Option.bind]
      rw [word?_of_lt (by omega), word?_of_lt (by omega), word?_of_lt (by omega)]
      simp only [rest]

theorem foldl_fixedCells (items : List Extent) {sum : Nat} (small : sum ≤ 65535) :
    items.foldl (fun sum item => min (sum + item.fixedCells) 65535) sum = min (sum + fixedSum items) 65535 := by
  induction items generalizing sum with
  | nil => exact (Nat.min_eq_left small).symm
  | cons item items ih =>
      rw [List.foldl_cons, ih (Nat.min_le_right _ _), fixedSum_cons]
      omega

theorem foldlM_flexWeight {sum : Nat} (small : sum + weightSum items < 2 ^ 16) :
    items.foldlM (fun sum item => word? 16 (sum + item.flexWeight)) sum = some (sum + weightSum items) := by
  induction items generalizing sum with
  | nil => rfl
  | cons item items ih =>
      rw [weightSum_cons, ← Nat.add_assoc] at small ⊢
      rw [List.foldlM_cons, word?_of_lt (by omega)]
      exact ih small

/-- However a rectangle is split, its parts tile it, and they are computed without a sum that has more than 16 bits
    and without a share that would lose bits. -/
theorem split_tiles (bounds : CellRect) (axis : Axis) (items : List Extent)
    (weights : (items.map Extent.flexWeight).sum ≤ 65535) (right : bounds.x + bounds.width ≤ 65535)
    (bottom : bounds.y + bounds.height ≤ 65535) :
    Tiles bounds axis items (bounds.split axis items) ∧
      split16? bounds axis items = some (bounds.split axis items) := by
  refine ⟨tiles_split bounds axis items, ?_⟩
  have small : bounds.start axis + bounds.extent axis < 2 ^ 16 := by
    cases axis <;> simp only [start, extent] <;> omega
  have weighed : weightSum items < 2 ^ 16 := Nat.lt_succ_of_le weights
  have sum : items.foldlM (fun sum item => word? 16 (sum + item.flexWeight)) 0 = some (weightSum items) := by
    rw [foldlM_flexWeight (by omega), Nat.zero_add]
  -- The sum of the fixed items is only cut off where there is nothing left for shares anyway.
  have free : bounds.extent axis - min (0 + fixedSum items) 65535 = bounds.extent axis - fixedSum items := by omega
  rw [split16?, sum, foldl_fixedCells items (Nat.zero_le _), free, split_eq]
  exact parts16?_eq small (Nat.sub_le _ _) weighed (shared_start _ items) (Nat.zero_le _)

/-- Ten columns for a fixed item and three shares: the first two are rounded down, and the last gets what is left. -/
theorem split_tiles_rounded :
    let bounds : CellRect := ⟨3, 2, 10, 7⟩
    let items : List Extent := [.flex 1, .fixed 3, .flex 2, .flex 1]
    let parts := bounds.split .horizontal items
    (items.map Extent.flexWeight).sum ≤ 65535 ∧ bounds.x + bounds.width ≤ 65535 ∧
      bounds.y + bounds.height ≤ 65535 ∧ parts = [⟨3, 2, 1, 7⟩, ⟨4, 2, 3, 7⟩, ⟨7, 2, 3, 7⟩, ⟨10, 2, 3, 7⟩] ∧
      Tiles bounds .horizontal items parts ∧ split16? bounds .horizontal items = some parts := by
  intro bounds items parts
  have tiles := split_tiles bounds .horizontal items (by decide) (by decide) (by decide)
  exact ⟨by decide, by decide, by decide, by decide, tiles⟩

end CellRect

end PocketBasic
