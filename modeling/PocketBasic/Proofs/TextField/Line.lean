import PocketBasic.Proofs.TextField.Cursor

/-! # The line in a text field

What is typed, erased, clicked and pasted edits a line: the characters before the cursor and those behind it. A
field keeps the text and a number instead, and every edit leaves both where the line has them. So no character is
inserted behind the end of the text and none is removed that is not there.
-/

namespace PocketBasic.TextField

/-- A line with a cursor in it: the characters before the cursor, the nearest in front, and those behind it. -/
structure Line where
  before : List Char
  after : List Char
  deriving Repr, DecidableEq

namespace Line

def text (l : Line) : List Char := l.before.reverse ++ l.after

def type (l : Line) (c : Char) : Line := { l with before := c :: l.before }

/-- Types all that has a place in a line. -/
def paste (l : Line) (text : List Char) : Line := (inserted text).foldl type l

/-- Moves the cursor behind so many characters, or behind all. -/
def moveTo (l : Line) (count : Nat) : Line := ⟨(l.text.take count).reverse, l.text.drop count⟩

def left : Line → Line
  | ⟨c :: before, after⟩ => ⟨before, c :: after⟩
  | ⟨[], after⟩ => ⟨[], after⟩

def right : Line → Line
  | ⟨before, c :: after⟩ => ⟨c :: before, after⟩
  | ⟨before, []⟩ => ⟨before, []⟩

/-- The line after an editing key, or `none` when the key is not one. -/
def edit? (l : Line) : Input → Option Line
  | .char c => some (l.type c)
  | .backspace => some { l with before := l.before.tail }
  | .delete => some { l with after := l.after.tail }
  | .cursorLeft => some l.left
  | .cursorRight => some l.right
  | .home => some ⟨[], l.text⟩
  | .end => some ⟨l.text.reverse, []⟩
  | _ => none

end Line

/-- A line as a field shows it: so many characters are scrolled out in front, and keys go to it or do not. -/
structure Viewed where
  line : Line
  scroll : Nat
  focused : Bool
  deriving Repr, DecidableEq

/-- What is done to a field: it gets or loses the keyboard, handles an event in its place on the screen, or gets a
    text all at once. -/
inductive Operation where
  | focus (focused : Bool)
  | event (input : Input) (bounds : CellRect)
  | paste (text : List Char)

namespace Viewed

def empty : Viewed := ⟨⟨[], []⟩, 0, false⟩

/-- The number of characters nearest to the one given that leaves the cursor in a view of such a width. -/
def follow (width cursor scroll : Nat) : Nat :=
  if width = 0 then scroll else max (min scroll cursor) (cursor - (width - 1))

/-- The line after an editing key, which it gets only while it has the keyboard. -/
def edit? (v : Viewed) (input : Input) : Option Line :=
  if v.focused then v.line.edit? input else none

/-- A click in the field moves the cursor behind the characters scrolled out and those in front of the column. -/
def click (v : Viewed) (bounds : CellRect) : Input → Viewed
  | .click row col =>
      if bounds.contains row col then { v with line := v.line.moveTo (v.scroll + (col - bounds.x)) } else v
  | _ => v

def perform (v : Viewed) : Operation → Viewed
  | .focus focused => { v with focused }
  | .paste text => { v with line := v.line.paste text }
  | .event input bounds =>
      match v.edit? input with
      | some line => { v with line, scroll := follow bounds.width line.before.length v.scroll }
      | none => v.click bounds input

/-- The field that shows the line. -/
def field (v : Viewed) : TextField := ⟨v.line.text, v.line.before.length, v.scroll, v.focused⟩

end Viewed

def perform (f : TextField) : Operation → TextField
  | .focus focused => { f with focused }
  | .event input bounds => (f.handle input bounds).2
  | .paste text => f.insertText text

def performAll (f : TextField) (os : List Operation) : TextField := os.foldl perform f

/-! ## Places in a text -/

/-- The text with a character at a place, which may not be behind its end. -/
def insertAt? (text : List Char) (place : Nat) (c : Char) : Option (List Char) :=
  if place ≤ text.length then some (text.insertIdx place c) else none

/-- The text without the character at a place, where one has to be. -/
def removeAt? (text : List Char) (place : Nat) : Option (List Char) :=
  if place < text.length then some (text.eraseIdx place) else none

/-- Inserts characters one behind the other. -/
def insertAllAt? (text : List Char) (place : Nat) : List Char → Option (List Char)
  | [] => some text
  | c :: rest => (insertAt? text place c).bind fun text => insertAllAt? text (place + 1) rest

/-- The text after an operation, made by insertions and removals of single characters. There is none if one of them
    is out of place. -/
def textAfter? (f : TextField) : Operation → Option (List Char)
  | .focus _ => some f.text
  | .paste text => insertAllAt? f.text f.cursor (inserted text)
  | .event input _ =>
      if f.focused then
        match input with
        | .char c => insertAt? f.text f.cursor c
        | .backspace => if f.cursor = 0 then some f.text else removeAt? f.text (f.cursor - 1)
        | .delete => if f.cursor < f.text.length then removeAt? f.text f.cursor else some f.text
        | _ => some f.text
      else some f.text

variable {l line : Line} {v : Viewed} {input : Input}

theorem insertIdx_length (before after : List Char) (c : Char) :
    (before ++ after).insertIdx before.length c = before ++ c :: after := by
  induction before with
  | nil => rfl
  | cons first before ih => exact congrArg (first :: ·) ih

/-! ## Edits of a line -/

namespace Line

theorem length_text (l : Line) : l.text.length = l.before.length + l.after.length := by
  simp [text]

theorem take_text (l : Line) : l.text.take l.before.length = l.before.reverse :=
  List.take_left' (List.length_reverse)

theorem drop_text (l : Line) : l.text.drop l.before.length = l.after :=
  List.drop_left' (List.length_reverse)

theorem text_type (l : Line) (c : Char) : (l.type c).text = l.text.insertIdx l.before.length c := by
  have inserted := insertIdx_length l.before.reverse l.after c
  rw [List.length_reverse] at inserted
  rw [text, text, inserted]
  simp [type]

theorem text_backspace (l : Line) :
    ({ l with before := l.before.tail } : Line).text =
      if l.before.length = 0 then l.text else l.text.eraseIdx (l.before.length - 1) := by
  obtain ⟨before, after⟩ := l
  cases before with
  | nil => rfl
  | cons c before => simp [text, List.eraseIdx_append]

theorem text_delete (l : Line) :
    ({ l with after := l.after.tail } : Line).text = l.text.eraseIdx l.before.length := by
  rw [text, text, List.eraseIdx_append_of_length_le (by simp)]
  simp

theorem text_left (l : Line) : l.left.text = l.text := by
  obtain ⟨before, after⟩ := l
  cases before <;> simp [left, text]

theorem length_before_left (l : Line) : l.left.before.length = l.before.length - 1 := by
  obtain ⟨before, after⟩ := l
  cases before <;> simp [left]

theorem text_right (l : Line) : l.right.text = l.text := by
  obtain ⟨before, after⟩ := l
  cases after <;> simp [right, text]

theorem length_before_right (l : Line) :
    l.right.before.length = min (l.before.length + 1) l.text.length := by
  obtain ⟨before, after⟩ := l
  cases after <;> simp [right, text]

theorem text_moveTo (l : Line) (count : Nat) : (l.moveTo count).text = l.text := by
  simp [moveTo, text]

theorem length_before_moveTo (l : Line) (count : Nat) :
    (l.moveTo count).before.length = min count l.text.length := by
  simp [moveTo]

/-- The characters pasted stand in front of those behind the cursor, and the cursor between them. -/
theorem foldl_type (l : Line) (typed : List Char) : typed.foldl type l = ⟨typed.reverse ++ l.before, l.after⟩ := by
  induction typed generalizing l with
  | nil => rfl
  | cons c rest ih => simp [ih, type]

end Line

/-! ## Fields that show lines -/

namespace Viewed

/-- A key edits the field as it edits the line. -/
theorem edit?_field (v : Viewed) (input : Input) :
    v.field.edit? input = (v.line.edit? input).map fun line => { v with line }.field := by
  unfold TextField.edit? Line.edit?
  cases input with
  | char c =>
      simp only [Option.map_some, insertChar, field, Line.text_type]
      rfl
  | backspace =>
      simp only [Option.map_some, TextField.backspace, field, Line.text_backspace, List.length_tail]
      by_cases front : v.line.before.length = 0 <;> simp [front]
  | delete => simp [TextField.delete, field, Line.text_delete]
  | cursorLeft => simp [field, Line.text_left, Line.length_before_left]
  | cursorRight => simp [field, Line.text_right, Line.length_before_right]
  | home => simp [field, Line.text]
  | «end» => simp [field, Line.text, Nat.add_comm]
  | _ => rfl

theorem showCursor_field (v : Viewed) (width : Nat) :
    v.field.showCursor width = { v with scroll := follow width v.line.before.length v.scroll }.field := by
  unfold showCursor follow field
  split
  · rfl
  · dsimp only
    split
    · congr 1
      omega
    · split
      · congr 1
        omega
      · congr 1
        omega

theorem click_field (v : Viewed) (input : Input) (bounds : CellRect) :
    (v.field.click input bounds).2 = (v.click bounds input).field := by
  cases input with
  | click row col =>
      simp only [TextField.click, Viewed.click]
      split
      · simp [field, Line.text_moveTo, Line.length_before_moveTo]
      · rfl
  | _ => rfl

theorem insertText_field (v : Viewed) (text : List Char) :
    v.field.insertText text = { v with line := v.line.paste text }.field := by
  have front : v.field.text.take v.field.cursor = v.line.before.reverse := v.line.take_text
  have behind : v.field.text.drop v.field.cursor = v.line.after := v.line.drop_text
  rw [insertText, front, behind, Line.paste, Line.foldl_type]
  simp [field, Line.text, inserted, Nat.add_comm]

theorem handle_field (v : Viewed) (input : Input) (bounds : CellRect) :
    (v.field.handle input bounds).2 = (v.perform (.event input bounds)).field := by
  have clicked := v.click_field input bounds
  unfold handle
  simp only [perform, Viewed.edit?]
  by_cases focused : v.focused = true
  · rw [if_pos focused, if_pos (show v.field.focused = true from focused), edit?_field]
    by_cases enter : input = .enter
    · subst enter
      rfl
    · rw [if_neg enter]
      cases v.line.edit? input with
      | none => exact clicked
      | some line => exact showCursor_field { v with line } bounds.width
  · rw [if_neg focused, if_neg (show ¬v.field.focused = true from focused)]
    exact clicked

/-- What is done to a field is done to the line that it shows. -/
theorem perform_field (v : Viewed) (o : Operation) : v.field.perform o = (v.perform o).field := by
  cases o with
  | focus => rfl
  | event input bounds => exact v.handle_field input bounds
  | paste text => exact v.insertText_field text

theorem performAll_field (v : Viewed) (os : List Operation) :
    v.field.performAll os = (os.foldl perform v).field :=
  List.foldl_hom field perform_field

end Viewed

/-! ## No place is out of the text -/

variable {f : TextField} {text : List Char}

theorem insertAllAt?_append (front behind typed : List Char) :
    insertAllAt? (front ++ behind) front.length typed = some (front ++ (typed ++ behind)) := by
  induction typed generalizing front with
  | nil => rfl
  | cons c rest ih =>
      have inside : front.length ≤ (front ++ behind).length := by simp
      have later := ih (front ++ [c])
      simp only [List.length_append, List.length_singleton, List.append_assoc, List.singleton_append] at later
      rw [insertAllAt?, insertAt?, if_pos inside, Option.bind_some, insertIdx_length, later]
      rfl

/-- Only an editing key changes the text, and only while the field has the keyboard. -/
theorem text_handle (f : TextField) (input : Input) (bounds : CellRect) :
    (f.handle input bounds).2.text = if f.focused then ((f.edit? input).getD f).text else f.text := by
  have clicked := f.text_click input bounds
  unfold handle
  by_cases focused : f.focused = true
  · rw [if_pos focused, if_pos focused]
    by_cases enter : input = .enter
    · subst enter
      rfl
    · rw [if_neg enter]
      cases f.edit? input with
      | none => exact clicked
      | some edited => exact edited.text_showCursor _
  · rw [if_neg focused, if_neg focused]
    exact clicked

/-- An edit that a field with its cursor in the text makes is one with every place in the text. -/
theorem textAfter?_eq_some (within : f.Within) (o : Operation) : f.textAfter? o = some (f.perform o).text := by
  unfold Within at within
  cases o with
  | focus => rfl
  | paste text =>
      have typed := insertAllAt?_append (f.text.take f.cursor) (f.text.drop f.cursor) (inserted text)
      rwa [List.take_append_drop, List.length_take_of_le within] at typed
  | event input bounds =>
      have edits : (f.perform (.event input bounds)).text =
          if f.focused then ((f.edit? input).getD f).text else f.text := f.text_handle input bounds
      rw [edits]
      unfold textAfter? edit?
      cases f.focused with
      | false => rfl
      | true =>
          cases input with
          | char c => simp [insertChar, insertAt?, within]
          | backspace =>
              by_cases front : f.cursor = 0
              · simp [backspace, front]
              · have there : f.cursor - 1 < f.text.length := by omega
                simp [backspace, front, removeAt?, there]
          | delete =>
              by_cases there : f.cursor < f.text.length
              · simp [delete, removeAt?, there]
              · simp [delete, there, List.eraseIdx_of_length_le (Nat.le_of_not_lt there)]
          | _ => rfl

/-- Whatever is done to a field from the start on, its text, its cursor and its view are those of the line that is
    edited the same way. The cursor is never behind the end of the text, and no operation inserts or removes a
    character out of place. -/
theorem edits_line (os : List Operation) :
    let f := empty.performAll os
    let v := os.foldl Viewed.perform .empty
    f.text = v.line.text ∧ f.cursor = v.line.before.length ∧ f.scroll = v.scroll ∧ f.focused = v.focused ∧
      f.cursor ≤ f.text.length ∧ ∀ o, f.textAfter? o = some (f.perform o).text := by
  intro f v
  have shown : f = v.field := Viewed.performAll_field .empty os
  have within : f.Within := by
    rw [shown, Within]
    exact v.line.length_text ▸ Nat.le_add_right _ _
  refine ⟨congrArg TextField.text shown, congrArg TextField.cursor shown, congrArg TextField.scroll shown,
    congrArg TextField.focused shown, within, textAfter?_eq_some within⟩

end PocketBasic.TextField
