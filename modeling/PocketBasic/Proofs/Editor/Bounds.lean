import Mathlib.Data.List.Induction
import PocketBasic.Proofs.App.Turn

/-! # The view of the program

The cursor of the program pane is always in a line, and after a key that moves it the view holds this line. The view
itself starts at a line as well, until a shorter text takes the place of the one shown: that puts the cursor back into
the text and leaves the view where it was.
-/

namespace PocketBasic

namespace Editor

/-- What happens to a pane. -/
inductive Operation where
  | navigate (rows : Nat) (input : Input)
  | fault (fault : RunFault)
  | scriptError (line : Nat) (message : String)
  | showCursor (rows : Nat)
  | reload (source : String)
  | clearScriptError
  | clearMark

/-- The pane after an operation. An event that is not for the pane leaves it alone. -/
def perform (e : Editor) : Operation → Editor
  | .navigate rows input => (e.navigate? rows input).getD e
  | .fault fault => e.showFault fault
  | .scriptError line message => e.showScriptError line message
  | .showCursor rows => e.showCursor rows
  | .reload source => e.reload source
  | .clearScriptError => e.clearScriptError
  | .clearMark => e.clearMark

/-- The pane after operations, in turn. -/
def performAll (e : Editor) (ops : List Operation) : Editor := ops.foldl perform e

/-- The keys that move the cursor. -/
def cursorKeys : List Input := [.cursorUp, .cursorDown, .pageUp, .pageDown, .home, .end]

/-- The lines in a view of so many rows. -/
def visible (e : Editor) (rows : Nat) : List (List Char) := (e.lines.drop e.scroll).take rows

variable {e : Editor} {op : Operation} {ops : List Operation} {rows line : Nat} {input : Input} {moved : Editor}

theorem performAll_concat (ops : List Operation) (op : Operation) :
    e.performAll (ops ++ [op]) = (e.performAll ops).perform op := by
  simp [performAll]

theorem linesOf_ne_nil (source : String) : linesOf source ≠ [] := by
  unfold linesOf
  split
  · exact List.cons_ne_nil _ _
  · assumption

theorem visible_ne_nil_iff (room : 0 < rows) : e.visible rows ≠ [] ↔ e.scroll < e.lines.length := by
  rw [visible, ← List.length_pos_iff, List.length_take, List.length_drop]
  omega

/-! ## What an operation does -/

/-- The cursor is in a line. -/
def Pointed (e : Editor) : Prop := e.cursor < e.lines.length

theorem cursor_showCursor (rows : Nat) : (e.showCursor rows).cursor = e.cursor := by
  obtain ⟨scroll, shown⟩ := e.exists_showCursor rows
  rw [shown]

theorem Pointed.last (pointed : e.Pointed) : e.last < e.lines.length :=
  Nat.sub_lt (Nat.lt_of_le_of_lt (Nat.zero_le _) pointed) Nat.one_pos

/-- The first line in view is as near to the one before as it can be with the cursor in view. -/
theorem scroll_showCursor (room : 0 < rows) :
    (e.showCursor rows).scroll = max (min e.scroll e.cursor) (e.cursor + 1 - rows) := by
  unfold showCursor
  rw [if_neg (Nat.ne_of_gt room)]
  split
  · show e.cursor = _
    omega
  · split
    · show e.cursor + 1 - rows = _
      omega
    · omega

/-- A key of the cursor moves it into a line and scrolls to it. -/
theorem navigate_cursorKey (pointed : e.Pointed) (rows : Nat) (key : input ∈ cursorKeys) :
    ∃ line, line < e.lines.length ∧ e.navigate? rows input = some (e.moveTo line rows) := by
  have last := pointed.last
  have cursor : e.cursor < e.lines.length := pointed
  simp only [cursorKeys, List.mem_cons, List.not_mem_nil, or_false] at key
  rcases key with rfl | rfl | rfl | rfl | rfl | rfl
  all_goals refine ⟨_, ?_, rfl⟩
  all_goals omega

/-- The other events of the pane turn the wheel, which moves the view alone. -/
theorem navigate_wheel (other : input ∉ cursorKeys) (navigated : e.navigate? rows input = some moved) :
    ∃ scroll, scroll ≤ max e.scroll (e.lines.length - rows) ∧ moved = { e with scroll } := by
  unfold navigate? at navigated
  split at navigated
  case h_7 | h_8 =>
    cases navigated
    exact ⟨_, by omega, rfl⟩
  case h_9 => cases navigated
  all_goals exact absurd (by decide) other

theorem pointed_moveTo (inside : line < e.lines.length) : (e.moveTo line rows).Pointed := by
  rw [Pointed, moveTo, cursor_showCursor, lines_showCursor]
  exact inside

theorem min_last_lt (nonempty : e.lines ≠ []) (line : Nat) : min line e.last < e.lines.length := by
  have length := List.length_pos_iff.mpr nonempty
  rw [last]
  omega

/-- Every operation leaves the cursor in a line. -/
theorem Pointed.perform (pointed : e.Pointed) (op : Operation) : (e.perform op).Pointed := by
  have nonempty : e.lines ≠ [] := List.length_pos_iff.mp (Nat.zero_lt_of_lt pointed)
  cases op with
  | navigate rows input =>
      by_cases key : input ∈ cursorKeys
      · obtain ⟨line, inside, navigated⟩ := navigate_cursorKey pointed rows key
        rw [Editor.perform, navigated]
        exact pointed_moveTo inside
      · rw [Editor.perform]
        cases navigated : e.navigate? rows input with
        | none => exact pointed
        | some moved =>
            obtain ⟨scroll, -, rfl⟩ := navigate_wheel key navigated
            exact pointed
  | fault fault => exact min_last_lt nonempty _
  | scriptError line message => exact min_last_lt nonempty _
  | showCursor rows =>
      rw [Editor.perform, Pointed, cursor_showCursor, lines_showCursor]
      exact pointed
  | reload source => exact min_last_lt (linesOf_ne_nil source) _
  | clearScriptError =>
      rw [Editor.perform, clearScriptError]
      split <;> exact pointed
  | clearMark => exact pointed

theorem scroll_showCursor_lt (pointed : e.Pointed) (inside : e.scroll < e.lines.length) (rows : Nat) :
    (e.showCursor rows).scroll < (e.showCursor rows).lines.length := by
  rw [lines_showCursor]
  have cursor : e.cursor < e.lines.length := pointed
  rcases Nat.eq_zero_or_pos rows with rfl | room
  · exact inside
  · rw [scroll_showCursor room]
    omega

/-- An operation in a view with room leaves the first line in view inside the text, if the text stays the same. -/
theorem scroll_perform_lt (pointed : e.Pointed) (inside : e.scroll < e.lines.length)
    (room : ∀ rows input, op = .navigate rows input → 0 < rows) (same : ∀ source, op ≠ .reload source) :
    (e.perform op).scroll < (e.perform op).lines.length := by
  cases op with
  | navigate rows input =>
      by_cases key : input ∈ cursorKeys
      · obtain ⟨line, here, navigated⟩ := navigate_cursorKey pointed rows key
        rw [perform, navigated]
        exact scroll_showCursor_lt (e := { e with cursor := line }) here inside rows
      · rw [perform]
        cases navigated : e.navigate? rows input with
        | none => exact inside
        | some moved =>
            obtain ⟨scroll, bound, rfl⟩ := navigate_wheel key navigated
            have some := room rows input rfl
            have past : e.lines.length - rows < e.lines.length := by omega
            exact Nat.lt_of_le_of_lt bound (Nat.max_lt.mpr ⟨inside, past⟩)
  | reload source => exact absurd rfl (same source)
  | showCursor rows => exact scroll_showCursor_lt pointed inside rows
  | fault _ | scriptError _ _ | clearMark => exact inside
  | clearScriptError =>
      rw [perform, clearScriptError]
      split <;> exact inside

/-! ## Operations in turn -/

theorem Pointed.performAll (pointed : e.Pointed) (ops : List Operation) : (e.performAll ops).Pointed := by
  induction ops generalizing e with
  | nil => exact pointed
  | cons op rest ih => exact ih (pointed.perform op)

theorem pointed_ofSource (path source : String) (lineNumbers : Bool) : (ofSource path source lineNumbers).Pointed :=
  List.length_pos_iff.mpr (linesOf_ne_nil source)

/-- The view starts inside the text all along if every text that takes the place of the one shown is long enough. -/
theorem scroll_performAll_lt (pointed : e.Pointed) (inside : e.scroll < e.lines.length)
    (room : ∀ rows input, .navigate rows input ∈ ops → 0 < rows)
    (long : ∀ done text, done ++ [.reload text] <+: ops → (e.performAll done).scroll < (linesOf text).length) :
    (e.performAll ops).scroll < (e.performAll ops).lines.length := by
  induction ops using List.reverseRecOn with
  | nil => exact inside
  | append_singleton done op ih =>
      have before := ih (fun rows input member => room rows input (List.mem_append_left _ member))
        fun front text start => long front text (start.trans (List.prefix_append done [op]))
      rw [performAll_concat]
      by_cases reloads : ∃ text, op = .reload text
      · obtain ⟨text, rfl⟩ := reloads
        exact long done text (List.prefix_refl _)
      · refine scroll_perform_lt (pointed.performAll done) before (fun rows input same => ?_) (not_exists.mp reloads)
        exact room rows input (same ▸ List.mem_append_right done List.mem_cons_self)

/-- Along all operations the cursor is in a line, and after a key that moves it the view holds this line. There is a
    line in view all along exactly if each text that is read again has more lines than the view is scrolled by. -/
theorem view_within_iff (path source : String) (lineNumbers : Bool) (ops : List Operation)
    (room : ∀ rows input, .navigate rows input ∈ ops → 0 < rows) :
    let after := (ofSource path source lineNumbers).performAll
    (∀ done, done <+: ops → (after done).cursor < (after done).lines.length) ∧
    (∀ done rows key, done ++ [.navigate rows key] <+: ops → key ∈ cursorKeys →
      let e := after (done ++ [.navigate rows key])
      e.scroll ≤ e.cursor ∧ e.cursor < e.scroll + rows) ∧
    ((∀ done, done <+: ops → (after done).scroll < (after done).lines.length ∧
        ∀ rows, 0 < rows → (after done).visible rows ≠ []) ↔
      ∀ done text, done ++ [.reload text] <+: ops → (after done).scroll < (linesOf text).length) := by
  intro after
  have pointed (done : List Operation) : (after done).Pointed :=
    (pointed_ofSource path source lineNumbers).performAll done
  refine ⟨fun done _ => pointed done, fun done rows key start moves => ?_, fun within done text start => ?_,
    fun long done start => ?_⟩
  · intro e
    obtain ⟨line, -, navigated⟩ := navigate_cursorKey (pointed done) rows moves
    have some : 0 < rows := room rows key (start.subset (List.mem_append_right done List.mem_cons_self))
    have moved : e = (after done).moveTo line rows := by
      rw [show e = (after done).perform (.navigate rows key) from performAll_concat done _, perform, navigated]
      rfl
    rw [moved, moveTo, cursor_showCursor, scroll_showCursor some]
    omega
  · have shown := (within _ start).1
    rw [show after (done ++ [.reload text]) = (after done).reload text from performAll_concat done _] at shown
    exact shown
  · have inside := scroll_performAll_lt (pointed_ofSource path source lineNumbers)
      (pointed_ofSource path source lineNumbers) (fun rows input member => room rows input (start.subset member))
      fun front text earlier => long front text (earlier.trans start)
    exact ⟨inside, fun rows some => (visible_ne_nil_iff some).mpr inside⟩

/-- Four lines, the last of them in a view of two, and then the first line alone: the view starts at line 2 still and
    is empty, with the cursor in line 0. -/
theorem view_within_iff_shortened :
    let ops : List Operation := [.navigate 2 .end, .reload "a"]
    let after := (ofSource "p" "a\nb\nc\nd" true).performAll
    (∀ rows input, .navigate rows input ∈ ops → 0 < rows) ∧
      (after ops).cursor = 0 ∧ (after ops).lines = [['a']] ∧ (after ops).scroll = 2 ∧ (after ops).visible 2 = [] ∧
      ¬∀ done text, done ++ [.reload text] <+: ops → (after done).scroll < (linesOf text).length := by
  intro ops after
  have room : ∀ rows input, .navigate rows input ∈ ops → 0 < rows := by
    intro rows input member
    simp only [ops, List.mem_cons, Operation.navigate.injEq, List.not_mem_nil, or_false, reduceCtorEq] at member
    omega
  have empty : (after ops).visible 2 = [] := by decide
  refine ⟨room, by decide, by decide, by decide, empty, fun long => ?_⟩
  have within := (view_within_iff "p" "a\nb\nc\nd" true ops room).2.2.mpr long
  exact (within ops (List.prefix_refl ops)).2 2 (by decide) empty

end Editor

end PocketBasic
