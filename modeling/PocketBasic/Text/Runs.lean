/-! # Runs

A list as the lengths and values of its longest runs of equal elements.
-/

namespace PocketBasic

/-- The runs of a list in order. -/
def runs {α : Type} [DecidableEq α] : List α → List (Nat × α)
  | [] => []
  | a :: rest =>
      match runs rest with
      | (n, b) :: more => if a = b then (n + 1, b) :: more else (1, a) :: (n, b) :: more
      | [] => [(1, a)]

end PocketBasic
