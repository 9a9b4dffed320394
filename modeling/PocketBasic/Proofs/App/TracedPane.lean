import PocketBasic.Proofs.App.Turn
import PocketBasic.Proofs.Engine.Traced
import PocketBasic.Proofs.Program.Traced
import PocketBasic.Proofs.Screen.Traced
import PocketBasic.View.Editor

/-! # Control characters in the program pane

The pane shows the name of the file and its lines as they were read, and the message of a mark. Only the ends of
the lines are taken out of a file.
-/

namespace PocketBasic

variable {given : List Char}

/-- What a pane shows besides numbers. Of the path that is the last part. -/
structure Editor.Traced (given : List Char) (e : Editor) : Prop where
  name : Text.Traced given e.name.toList
  lines : ∀ line ∈ e.lines, Text.Traced given line
  mark : ∀ mark, e.mark = some mark → Text.Traced given mark.message.toList

namespace Editor

variable {e : Editor}

theorem traced_linesOf {source : String} (read : ∀ line ∈ Text.lines source.toList, Text.Traced given line) :
    ∀ line ∈ linesOf source, Text.Traced given line := by
  unfold linesOf
  split
  · exact List.forall_mem_singleton.mpr Text.traced_nil
  · exact read

namespace Traced

variable (traced : e.Traced given)

include traced

theorem moved (cursor scroll : Nat) : Editor.Traced given { e with cursor, scroll } :=
  ⟨traced.name, traced.lines, traced.mark⟩

theorem showCursor (rows : Nat) : (e.showCursor rows).Traced given := by
  obtain ⟨scroll, scrolled⟩ := e.exists_showCursor rows
  rw [scrolled]
  exact traced.moved e.cursor scroll

theorem navigate {moved : Editor} {rows : Nat} {input : Input} (navigated : e.navigate? rows input = some moved) :
    moved.Traced given := by
  obtain ⟨cursor, scroll, rfl⟩ := exists_navigate navigated
  exact traced.moved cursor scroll

theorem reload {source : String} (read : ∀ line ∈ Text.lines source.toList, Text.Traced given line) :
    (e.reload source).Traced given :=
  ⟨traced.name, traced_linesOf read, nofun⟩

theorem showFault {fault : RunFault} (told : fault.Traced given) : (e.showFault fault).Traced given := by
  refine ⟨traced.name, traced.lines, ?_⟩
  rintro _ ⟨⟩
  exact told

theorem showScriptError {message : String} (told : Text.Traced given message.toList) (line : Nat) :
    (e.showScriptError line message).Traced given := by
  refine ⟨traced.name, traced.lines, ?_⟩
  rintro _ ⟨⟩
  exact told

theorem clearMark : e.clearMark.Traced given := ⟨traced.name, traced.lines, nofun⟩

theorem clearScriptError : e.clearScriptError.Traced given := by
  unfold Editor.clearScriptError
  split
  · exact ⟨traced.name, traced.lines, nofun⟩
  · exact traced

/-- The line feeds between the lines are gone when the text is read again. -/
theorem source : ∀ line ∈ Text.lines e.source.toList, Text.Traced given line := by
  intro line member c inside control
  rw [Editor.source, String.toList_ofList] at member
  obtain ⟨joined, notFeed⟩ := Text.mem_of_mem_lines member inside
  rcases Text.mem_of_mem_joinLines joined with feed | ⟨old, among, shown⟩
  · exact absurd feed notFeed
  · exact traced.lines old among c shown control

end Traced

end Editor

/-! ## Drawing -/

namespace EditorView

variable {s : Screen} (drawn : s.Traced given)

include drawn

theorem traced_drawChars {text : List Char} (traced : Text.Traced given text) (row col byte : Nat)
    (marked : Option (Nat × Nat)) (bg : Color) : (drawChars s row col byte marked bg text).Traced given := by
  induction text generalizing s col byte with
  | nil => exact drawn
  | cons c rest ih =>
      obtain ⟨first, rest⟩ := Text.traced_cons.mp traced
      exact ih (drawn.set (Text.traced_cons.mpr ⟨first, Text.traced_nil⟩)) rest _ _

theorem traced_drawLine (e : Editor) {text : List Char} (traced : Text.Traced given text) (content : CellRect)
    (row line : Nat) : (drawLine e s content row line text).Traced given := by
  have numbered : Screen.Traced given (if e.lineNumbers then
      s.writeChars row content.x .lightGray .blue (padNumber 4 ' ' (line + 1) ++ [' ']) else s) := by
    split
    · exact drawn.writeChars (Text.traced_append.mpr ⟨traced_padNumber _ _ rfl, Text.traced_blank⟩)
    · exact drawn
  exact traced_drawChars (numbered.fill Text.traced_blank) (traced.of_subset (List.take_subset _ _)) _ _ _ _ _

theorem traced_drawLines {e : Editor} (traced : e.Traced given) (content : CellRect) :
    ((((e.lines.drop e.scroll).take content.height).zipIdx 0).foldl
      (fun s (text, r) => drawLine e s content (content.y + r) (e.scroll + r) text) s).Traced given := by
  refine drawn.foldl fun s entry member drawn => ?_
  obtain ⟨text, r⟩ := entry
  have inside := List.mem_of_mem_drop (List.mem_of_mem_take (List.fst_mem_of_mem_zipIdx member))
  exact traced_drawLine drawn e (traced.lines text inside) _ _ _

theorem traced_drawMark {e : Editor} (traced : e.Traced given) (row col width : Nat) :
    Screen.Traced given (match e.mark with
      | some a =>
          s.writeChars row col .white .red
            ((" line " ++ toString (a.span.line + 1) ++ ": " ++ a.message ++ " ").toList.take width)
      | none => s) := by
  split
  · rename_i mark shown
    have told : Text.Traced given (" line " ++ toString (mark.span.line + 1) ++ ": " ++ mark.message ++ " ").toList :=
      ((((Text.traced_toString_nat _).behind (by decide)).before (by decide)).append
        (traced.mark mark shown)).before (by decide)
    exact drawn.writeChars (told.of_subset (List.take_subset _ _))
  · exact drawn

theorem traced_draw {e : Editor} (traced : e.Traced given) (bounds : CellRect) :
    (draw e s bounds).Traced given := by
  have title : Text.Traced given (" " ++ e.name ++ " ").toList :=
    (traced.name.behind (by decide)).before (by decide)
  unfold draw
  split
  · exact drawn
  · exact traced_drawMark (traced_drawLines (drawn.box.write title) traced _) traced _ _ _

end EditorView

end PocketBasic
