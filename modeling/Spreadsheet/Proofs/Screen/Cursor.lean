import Spreadsheet.Proofs.Screen.Pointing

/-!
# Spreadsheet.Proofs.Screen.Cursor — where the cursor of an edit is drawn

The cursor belongs behind the label of the cell and the text left of it, or at the last column before
the border.  That column is counted in 16 bits before it is kept off the border, so the cursor of an
edit of a very long text can stand further to the left: it does so if the count is no word and what is
left of it in 16 bits is short of the border.
-/

namespace Spreadsheet

namespace Screen

variable {γ : Type} {w : Workspace γ} {entry : CellEdit} {width height : Nat}

/-- An edit of the first cell with these characters, and the cursor behind them. -/
def editing (chars : List Char) : Workspace MemoryArchive :=
  let w := Workspace.open standardSheet MemoryArchive.empty .empty
  { w with selection := w.selection.startEdit (String.ofList chars) }

end Screen

end Spreadsheet
