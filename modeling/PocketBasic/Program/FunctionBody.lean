import PocketBasic.Engine.Diagnostic
import PocketBasic.Text.Blank

/-! # Function bodies

A function body typed into an input field is checked by its characters and its parentheses only:
it must not be blank, its characters are ASCII letters, digits, the space and a few signs, and its
parentheses balance.
-/

namespace PocketBasic.FunctionBody

/-- The characters of a body besides letters, digits and parentheses. -/
def signs : List Char := " _.+-*/^<>=$".toList

/-- A character that may stand in a body outside its parentheses. -/
def isPlain (c : Char) : Bool :=
  c.isAlphanum || signs.contains c

/-- An error at one character. -/
def errorAt (index : Nat) (message : String) : Diagnostic :=
  ⟨index, index + 1, .error, message⟩

/-- Messages about the characters from `index` on, with the indices of the open parentheses before
    them, innermost first. Parentheses left open are reported at the end, outermost first. -/
def check (index : Nat) (opened : List Nat) : List Char → List Diagnostic
  | [] => opened.reverse.map (errorAt · "unclosed '('")
  | c :: rest =>
      if c = '(' then check (index + 1) (index :: opened) rest
      else if c = ')' then
        match opened with
        | [] => errorAt index "unmatched ')'" :: check (index + 1) [] rest
        | _ :: opened => check (index + 1) opened rest
      else if isPlain c then check (index + 1) opened rest
      else
        errorAt index ("unexpected character '" ++ String.singleton c ++ "'") ::
          check (index + 1) opened rest

/-- All messages about a body. -/
def diagnostics (s : List Char) : List Diagnostic :=
  if s.all Text.isBlank then [errorAt 0 "expression expected"] else check 0 [] s

end PocketBasic.FunctionBody
