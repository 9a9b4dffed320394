/-! # Lines of a text

A line ends at a line feed, and a carriage return directly before that line feed belongs to the
line ending. A carriage return anywhere else is an ordinary character, also at the very end of a
text that has no final line feed.
-/

namespace PocketBasic.Text

/-- The lines of a text without their endings. A final line ending does not start another line, so
    the empty text has no lines. -/
def lines : List Char → List (List Char)
  | [] => []
  | '\n' :: rest => [] :: lines rest
  | '\r' :: '\n' :: rest => [] :: lines rest
  | c :: rest =>
      match lines rest with
      | [] => [[c]]
      | line :: more => (c :: line) :: more

/-- Lines joined by single line feeds, with none after the last. -/
def joinLines : List (List Char) → List Char
  | [] => []
  | [line] => line
  | line :: more => line ++ '\n' :: joinLines more

end PocketBasic.Text
