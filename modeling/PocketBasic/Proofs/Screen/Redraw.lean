import PocketBasic.Proofs.Screen.Flush

/-! # Screens and the terminal

Whatever is drawn between two flushes, the screen knows nothing about the terminal that is not so. Hence a
flush that writes only differences shows the same as one that writes everything.
-/

namespace PocketBasic

/-- What the terminal shows at an index. -/
def Grid.cell? (g : Grid) (i : Nat) : Option Cell := g.cells[i]?

namespace Screen

/-- What is drawn at an index. -/
def cell? (s : Screen) (i : Nat) : Option Cell := s.back[i]?

/-- What the terminal is known to show at an index. -/
def known? (s : Screen) (i : Nat) : Option Cell := s.front[i]?.join

theorem known?_eq_some {s : Screen} {i : Nat} {cell : Cell} :
    s.known? i = some cell ↔ s.front[i]? = some (some cell) :=
  Option.join_eq_some_iff

/-- A change to the grid that is not on the terminal yet. -/
inductive Edit where
  | set (row col : Nat) (ch : Char) (fg bg : Color)
  | write (row col : Nat) (text : String) (fg bg : Color)
  | fill (row col width height : Nat) (ch : Char) (fg bg : Color)
  | clear (fg bg : Color)
  | box (row col width height : Nat) (fg bg : Color)
  deriving Repr, DecidableEq

def edit (s : Screen) : Edit → Screen
  | .set row col ch fg bg => s.set row col ch fg bg
  | .write row col text fg bg => s.write row col text fg bg
  | .fill row col width height ch fg bg => s.fill row col width height ch fg bg
  | .clear fg bg => s.clear fg bg
  | .box row col width height fg bg => s.box row col width height fg bg

/-- The characters are printed as they are. -/
def Edit.IsPlain : Edit → Prop
  | .set _ _ ch _ _ | .fill _ _ _ _ ch _ _ => Key.isControl ch = false
  | .write _ _ text _ _ => ∀ ch ∈ text.toList, Key.isControl ch = false
  | .clear _ _ | .box _ _ _ _ _ _ => True

/-- No cell holds a control character. -/
def IsPlain (s : Screen) : Prop :=
  ∀ i cell, s.cell? i = some cell → Key.isControl cell.ch = false

/-- The screen has been drawn on. -/
structure Drawn (s other : Screen) : Prop where
  width : other.width = s.width
  height : other.height = s.height
  known : ∀ i, other.known? i = s.known? i
  plain : s.IsPlain → other.IsPlain

namespace Drawn

variable {s other third : Screen} {row col : Nat} {fg bg : Color} {ch : Char}

theorem refl (s : Screen) : s.Drawn s := ⟨rfl, rfl, fun _ => rfl, id⟩

theorem trans (first : s.Drawn other) (second : other.Drawn third) : s.Drawn third :=
  ⟨second.width.trans first.width, second.height.trans first.height,
    fun i => (second.known i).trans (first.known i), fun plain => second.plain (first.plain plain)⟩

theorem set (plain : Key.isControl ch = false) : s.Drawn (s.set row col ch fg bg) := by
  unfold Screen.set
  split
  · refine ⟨rfl, rfl, fun _ => rfl, fun before j cell entry => ?_⟩
    dsimp only [cell?] at entry
    rw [Vector.getElem?_setIfInBounds] at entry
    split at entry
    · split at entry
      · cases entry
        exact plain
      · cases entry
    · exact before j cell entry
  · exact refl s

theorem foldl {α : Type} {f : Screen → α → Screen}
    (step : ∀ (s : Screen) a, s.Drawn (f s a)) (items : List α) :
    s.Drawn (items.foldl f s) := by
  induction items generalizing s with
  | nil => exact refl s
  | cons a rest ih => exact (step s a).trans ih

theorem fill {width height : Nat} (plain : Key.isControl ch = false) :
    s.Drawn (s.fill row col width height ch fg bg) :=
  foldl (fun _ _ => foldl (fun _ _ => set plain) _) _

theorem writeChars {text : List Char} (plain : ∀ ch ∈ text, Key.isControl ch = false) :
    s.Drawn (s.writeChars row col fg bg text) := by
  induction text generalizing s col with
  | nil => exact refl s
  | cons ch rest ih =>
      rw [List.forall_mem_cons] at plain
      unfold Screen.writeChars
      split
      · exact (set plain.1).trans (ih plain.2)
      · exact refl s

theorem clear : s.Drawn (s.clear fg bg) := by
  refine ⟨rfl, rfl, fun _ => rfl, fun _ i cell entry => ?_⟩
  rw [Vector.eq_of_mem_replicate (Vector.mem_of_getElem? entry)]
  rfl

theorem box {width height : Nat} : s.Drawn (s.box row col width height fg bg) := by
  unfold Screen.box
  split
  · exact refl s
  · refine (fill ?_).trans <| (fill ?_).trans <| (fill ?_).trans <| (fill ?_).trans <| (fill ?_).trans <|
      (set ?_).trans <| (set ?_).trans <| (set ?_).trans (set ?_)
    all_goals decide

theorem edit (e : Edit) (plain : e.IsPlain) : s.Drawn (s.edit e) := by
  cases e with
  | set => exact set plain
  | write => exact writeChars plain
  | fill => exact fill plain
  | clear => exact clear
  | box => exact box

end Drawn

/-- What the screen knows of the terminal is so, up to the names of the colors. -/
structure Mirrored (s : Screen) (g : Grid) : Prop where
  width : g.width = s.width
  height : g.height = s.height
  known : ∀ i cell, s.known? i = some cell → (g.cell? i).map Cell.resolved = some cell.resolved
  plain : s.IsPlain

namespace Mirrored

variable {s other : Screen} {g : Grid}

theorem blank (g : Grid) : (Screen.blank g.width g.height).Mirrored g := by
  refine ⟨rfl, rfl, fun i cell entry => ?_, fun i cell entry => ?_⟩
  · cases Vector.eq_of_mem_replicate (Vector.mem_of_getElem? (known?_eq_some.mp entry))
  · rw [Vector.eq_of_mem_replicate (Vector.mem_of_getElem? entry)]
    rfl

theorem drawn (mirrored : s.Mirrored g) (drawn : s.Drawn other) : other.Mirrored g :=
  ⟨mirrored.width.trans drawn.width.symm, mirrored.height.trans drawn.height.symm,
    fun i cell entry => mirrored.known i cell ((drawn.known i).symm.trans entry),
    drawn.plain mirrored.plain⟩

theorem invalidate (mirrored : s.Mirrored g) : s.invalidate.Mirrored g := by
  refine ⟨mirrored.width, mirrored.height, fun i cell entry => ?_, mirrored.plain⟩
  cases Vector.eq_of_mem_replicate (Vector.mem_of_getElem? (known?_eq_some.mp entry))

end Mirrored

theorem isPlain_changes {width : Nat} {pairs : List (Cell × Option Cell)} {pen : Pen} {i : Nat}
    (plain : ∀ p ∈ pairs, Key.isControl p.1.ch = false) :
    ∀ op ∈ changes width pen i pairs, op.IsPlain := by
  induction pairs generalizing pen i with
  | nil => simp [changes]
  | cons pair rest ih =>
      rw [List.forall_mem_cons] at plain
      unfold changes
      split
      · exact ih plain.2
      · rw [List.forall_mem_append]
        refine ⟨?_, ih plain.2⟩
        simp only [cellOps, List.forall_mem_append]
        refine ⟨⟨?_, ?_⟩, ?_⟩
        · split <;> simp [TerminalOp.IsPlain]
        · split <;> simp [TerminalOp.IsPlain]
        · simpa [TerminalOp.IsPlain] using plain.1

section Flush

variable {s : Screen} {g : Grid}

/-- What the screen has to show, and what it knows to be shown. -/
def pairs (s : Screen) : List (Cell × Option Cell) := s.back.toList.zip s.front.toList

theorem getElem?_pairs {i : Nat} {cell : Cell} {known : Option Cell} :
    s.pairs[i]? = some (cell, known) ↔ s.back[i]? = some cell ∧ s.front[i]? = some known := by
  simp [pairs, List.getElem?_zip_eq_some]

theorem isPlain_flush (plain : s.IsPlain) : ∀ op ∈ s.flush.1, op.IsPlain := by
  rw [flush, List.forall_mem_append]
  constructor
  · refine isPlain_changes fun p member => ?_
    obtain ⟨i, entry⟩ := List.mem_iff_getElem?.mp member
    exact plain i p.1 (getElem?_pairs.mp entry).1
  · unfold cursorOps
    split <;> simp [TerminalOp.IsPlain]

theorem mem_stale {i : Nat} :
    i ∈ stale 0 s.pairs ↔ ∃ cell, s.cell? i = some cell ∧ s.known? i ≠ some cell := by
  simp only [stale, List.mem_map, List.mem_filter, List.mem_zipIdx_iff_getElem?, decide_eq_true_eq,
    Prod.exists, exists_eq_right, getElem?_pairs]
  constructor
  case mp =>
    rintro ⟨cell, known, ⟨drawn, shown⟩, different⟩
    exact ⟨cell, drawn, by simpa [known?, shown] using different⟩
  case mpr =>
    rintro ⟨cell, drawn, different⟩
    obtain ⟨inside, _⟩ := Vector.getElem?_eq_some_iff.mp drawn
    have shown : s.front[i]? = some s.front[i] := Vector.getElem?_eq_getElem inside
    exact ⟨cell, s.front[i], ⟨drawn, shown⟩, by simpa [known?, shown] using different⟩

theorem redrawn_flush (mirrored : s.Mirrored g) :
    Redrawn 0 s.pairs g (g.applyAll s.flush.1) ∧ g.writesAll s.flush.1 = stale 0 s.pairs := by
  have size : s.pairs.length = g.width * g.height := by
    simp [pairs, mirrored.width, mirrored.height]
  obtain ⟨redrawn, written⟩ := redrawn_changes (i := 0) s.pairs (Pen.knows_nothing g) (by omega)
  rw [mirrored.width] at redrawn written
  have ops : s.flush.1 = changes s.width ⟨none, none⟩ 0 s.pairs ++ s.cursorOps := rfl
  rw [ops, Grid.applyAll_append, Grid.writesAll_append, written]
  unfold cursorOps
  split
  · exact ⟨⟨redrawn.width, redrawn.height, redrawn.before, redrawn.shown⟩, List.append_nil _⟩
  · exact ⟨⟨redrawn.width, redrawn.height, redrawn.before, redrawn.shown⟩, List.append_nil _⟩

/-- Replaying a flush shows every cell, and writes those that were not known to be shown. -/
theorem Mirrored.replay_flush (mirrored : s.Mirrored g) :
    let after := g.replay (TerminalOp.render s.flush.1)
    s.flush.2.Mirrored after.grid ∧
      (∀ i, (after.grid.cell? i).map Cell.resolved = (s.cell? i).map Cell.resolved) ∧
      after.written = stale 0 s.pairs := by
  intro after
  obtain ⟨redrawn, written⟩ := redrawn_flush mirrored
  obtain ⟨replayed, writes⟩ :
      after.grid.resolved = (g.applyAll s.flush.1).resolved ∧ after.written = g.writesAll s.flush.1 :=
    g.replay_render (isPlain_flush mirrored.plain)
  have width : after.grid.width = s.width := by
    rw [← Grid.width_resolved, replayed, Grid.width_resolved, redrawn.width, mirrored.width]
  have height : after.grid.height = s.height := by
    rw [← Grid.height_resolved, replayed, Grid.height_resolved, redrawn.height, mirrored.height]
  have cells (i : Nat) : (after.grid.cell? i).map Cell.resolved =
      ((g.applyAll s.flush.1).cell? i).map Cell.resolved := by
    rw [Grid.cell?, Grid.cell?, ← Grid.getElem?_resolved, ← Grid.getElem?_resolved]
    exact congrArg (fun g : Grid => g.cells[i]?) replayed
  have shown (i : Nat) :
      (after.grid.cell? i).map Cell.resolved = (s.cell? i).map Cell.resolved := by
    rw [cells, Grid.cell?, cell?]
    cases drawn : s.back[i]? with
    | none =>
        have outside : g.width * g.height ≤ i := by
          rw [mirrored.width, mirrored.height]
          exact Vector.getElem?_eq_none_iff.mp drawn
        rw [Vector.getElem?_eq_none_iff.mpr (by rwa [redrawn.width, redrawn.height])]
    | some cell =>
        obtain ⟨inside, _⟩ := Vector.getElem?_eq_some_iff.mp drawn
        have known : s.front[i]? = some s.front[i] := Vector.getElem?_eq_getElem inside
        have result := redrawn.shown i cell _ (getElem?_pairs.mpr ⟨drawn, known⟩)
        rw [Nat.zero_add] at result
        rw [result]
        split
        · rename_i same
          rw [same] at known
          exact mirrored.known i cell (known?_eq_some.mpr known)
        · rfl
  refine ⟨⟨width, height, fun i cell entry => ?_, mirrored.plain⟩, shown, writes.trans written⟩
  have copied : (s.back.map some)[i]? = some (some cell) := known?_eq_some.mp entry
  rw [Vector.getElem?_map, Option.map_eq_some_iff] at copied
  obtain ⟨_, drawn, ⟨⟩⟩ := copied
  rw [shown, cell?, drawn]
  rfl

end Flush

/-! ## Any number of flushes -/

/-- What happens to a screen and its terminal. -/
inductive Act where
  | edit (e : Edit)
  | setCursor (row col : Nat)
  | setCursorVisible (visible : Bool)
  | invalidate
  /-- The terminal has another size now, and shows whatever it shows. -/
  | resize (g : Grid)
  | flush

def Act.IsPlain : Act → Prop
  | .edit e => e.IsPlain
  | _ => True

/-- The screen and the terminal after an act. -/
def act (state : Screen × Grid) : Act → Screen × Grid
  | .edit e => (state.1.edit e, state.2)
  | .setCursor row col => (state.1.setCursor row col, state.2)
  | .setCursorVisible visible => (state.1.setCursorVisible visible, state.2)
  | .invalidate => (state.1.invalidate, state.2)
  | .resize g => (.blank g.width g.height, g)
  | .flush => (state.1.flush.2, (state.2.replay (TerminalOp.render state.1.flush.1)).grid)

namespace Mirrored

theorem act {state : Screen × Grid} (mirrored : state.1.Mirrored state.2) {a : Act}
    (plain : a.IsPlain) : (Screen.act state a).1.Mirrored (Screen.act state a).2 := by
  cases a with
  | edit e => exact mirrored.drawn (.edit e plain)
  | setCursor | setCursorVisible => exact ⟨mirrored.width, mirrored.height, mirrored.known, mirrored.plain⟩
  | invalidate => exact mirrored.invalidate
  | resize g => exact .blank g
  | flush => exact mirrored.replay_flush.1

theorem run {state : Screen × Grid} (mirrored : state.1.Mirrored state.2) {acts : List Act}
    (plain : ∀ a ∈ acts, a.IsPlain) :
    (acts.foldl Screen.act state).1.Mirrored (acts.foldl Screen.act state).2 := by
  induction acts generalizing state with
  | nil => exact mirrored
  | cons a rest ih =>
      rw [List.forall_mem_cons] at plain
      exact ih (mirrored.act plain.1) plain.2

end Mirrored

/-- After any drawing the next flush shows what was drawn, as a redraw of everything would, and leaves
    alone the cells that are known to be shown. -/
theorem flush_redraws {s : Screen} {g : Grid} (mirrored : s.Mirrored g) {acts : List Act}
    (plain : ∀ a ∈ acts, a.IsPlain) :
    let state := acts.foldl act (s, g)
    let after := state.2.replay (TerminalOp.render state.1.flush.1)
    state.1.Mirrored state.2 ∧
      (∀ i, (after.grid.cell? i).map Cell.resolved = (state.1.cell? i).map Cell.resolved) ∧
      state.1.flush.2.front.toList = state.1.back.toList.map some ∧
      ∀ i, i ∈ after.written ↔
        ∃ cell, state.1.cell? i = some cell ∧ state.1.known? i ≠ some cell := by
  intro state after
  have current : state.1.Mirrored state.2 := mirrored.run plain
  obtain ⟨_, shown, written⟩ := current.replay_flush
  refine ⟨current, shown, ?_, fun i => ?_⟩
  · exact Vector.toList_map
  · rw [written, mem_stale]

/-- A letter is drawn over one of two that are shown. The other one is not written again. -/
theorem flush_redraws_letter :
    let acts : List Act :=
      [.edit (.write 1 2 "ab" .white .blue), .flush, .edit (.set 1 2 'c' .white .blue)]
    let state := acts.foldl act (.blank 3 2, .blank 3 2)
    let after := state.2.replay (TerminalOp.render state.1.flush.1)
    (Screen.blank 3 2).Mirrored (.blank 3 2) ∧ (∀ a ∈ acts, a.IsPlain) ∧
      (after.grid.cell? 1).map Cell.resolved =
        some ⟨'c', .rgb 0xFF 0xFF 0xFF, .rgb 0x00 0x00 0xAA⟩ ∧
      1 ∈ after.written ∧ 2 ∉ after.written := by
  intro acts state after
  have blank : (Screen.blank 3 2).Mirrored (.blank 3 2) := .blank (Grid.blank 3 2)
  have plain : ∀ a ∈ acts, a.IsPlain := by
    simp [acts, Act.IsPlain, Edit.IsPlain, Key.isControl]
  obtain ⟨_, shown, _, written⟩ := flush_redraws blank plain
  have drawn : state.1.cell? 1 = some ⟨'c', .white, .blue⟩ := by decide +kernel
  have changed : state.1.known? 1 ≠ some ⟨'c', .white, .blue⟩ := by decide +kernel
  have kept : state.1.cell? 2 = state.1.known? 2 := by decide +kernel
  refine ⟨blank, plain, ?_, ?_, ?_⟩
  all_goals dsimp only [after, state]
  · rw [shown 1, drawn]
    rfl
  · exact (written 1).mpr ⟨_, drawn, changed⟩
  · rw [written 2]
    rintro ⟨cell, again, unknown⟩
    exact unknown (kept.symm.trans again)

end Screen

end PocketBasic
