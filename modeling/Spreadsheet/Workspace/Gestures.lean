import Spreadsheet.Interchange.Block
import Spreadsheet.Workspace.State

/-!
# Spreadsheet.Workspace.Gestures — editing, selecting and changing cells

One function per gesture of the user that concerns cells.  Gestures that can fail or change nothing
tell so, and leave a message.
-/

namespace Spreadsheet

namespace Workspace

variable {γ : Type}

/-! ### Editing -/

/-- Begins to edit the active cell with its raw text. -/
def editActive (w : Workspace γ) : Workspace γ :=
  { w with
    selection := w.selection.startEdit (w.grid.textAt w.selection.active)
    message := none }

/-- Changes the text of the edit in progress. -/
def edit (w : Workspace γ) (f : TextField → TextField) : Workspace γ :=
  { w with selection := w.selection.edit f }

/-- Writes the edited text to its cell, and tells whether there was an edit. -/
def commit (w : Workspace γ) : Bool × Workspace γ :=
  match w.selection.takeEdit with
  | (none, _) => (false, w)
  | (some entry, selection) =>
    (true, (change { w with selection } (w.grid.set entry.cell entry.field.text)).2)

/-- Steps to a neighbour of the active cell. -/
def step (w : Workspace γ) (d : Direction) (extend : Bool) : Workspace γ :=
  reveal
    { w with
      selection := w.selection.step d extend w.dims
      stopped := w.stopped || (w.selection.active.neighbour? d).isNone }

/-- Ends the edit and steps down. -/
def commitAndStep (w : Workspace γ) : Workspace γ :=
  match w.commit with
  | (true, w) => w.step .down false
  | (false, w) => w

/-- Drops the edit. -/
def dropEdit (w : Workspace γ) : Workspace γ := { w with selection := w.selection.dropEdit }

/-! ### Selecting -/

/-- Selects the whole sheet. -/
def chooseAll (w : Workspace γ) : Workspace γ :=
  { w with selection := w.selection.chooseAll w.dims }

/-- The pointer is pressed on a cell.  An edit in progress is committed first. -/
def press (w : Workspace γ) (p : Position) (shift : Bool) : Workspace γ :=
  let w := w.commit.2
  { w with selection := w.selection.press (w.dims.nearest p) shift, message := none }

/-- The pointer is moved to a cell. -/
def drag (w : Workspace γ) (p : Position) : Workspace γ :=
  { w with selection := w.selection.drag (w.dims.nearest p) }

/-- The pointer is released. -/
def release (w : Workspace γ) : Workspace γ := { w with selection := w.selection.release }

/-! ### Changing cells -/

/-- Clears the selected cells, and tells whether there was anything in them. -/
def clearRegion (w : Workspace γ) : Bool × Workspace γ :=
  let region := w.selection.region
  match w.change (w.grid.eraseWithin region.rect) with
  | (true, w) => (true, w.say ("Deleted " ++ region.text))
  | (false, w) => (false, w)

/-- Copies the raw texts of the selected cells to the clipboard, and tells whether that worked. -/
def copy (w : Workspace γ) : Bool × Workspace γ :=
  match w.clipboard.write (Interchange.blockText w.selection.region w.grid) with
  | .ok clipboard => (true, say { w with clipboard } ("Copied " ++ w.selection.label))
  | .error e => (false, w.say ("Copy failed: " ++ e.message))

/-- Copies the selected cells and clears them, unless the copy fails. -/
def cut (w : Workspace γ) : Bool × Workspace γ :=
  match w.copy with
  | (false, w) => (false, w)
  | (true, w) => (true, w.clearRegion.2.say ("Cut " ++ w.selection.label))

/-- Pastes the text on the clipboard at the active cell and selects where it went.  A block that is
counted beyond the words stops the program. -/
def paste (w : Workspace γ) : Bool × Workspace γ :=
  match w.clipboard.read with
  | .error e => (false, w.say ("Paste failed: " ++ e.message))
  | .ok text =>
    match Interchange.paste? text w.selection.active w.grid w.dims with
    | some (some r, g) =>
      let w := (w.change g).2
      (true, say { w with selection := w.selection.choose r } ("Pasted into " ++ r.text))
    | some (none, g) => (false, (w.change g).2.say "Nothing to paste")
    | none => (false, w.stop)

/-- Goes to a state of the history. -/
def travel (w : Workspace γ) (step : Option Grid × History Grid) (done nothing : String) :
    Workspace γ :=
  match step with
  | (some g, history) =>
    let w := { w with grid := g, history, selection := w.selection.confine w.dims }
    w.scheduleSave.say done
  | (none, history) => say { w with history } nothing

/-- Takes back the last change. -/
def undo (w : Workspace γ) : Workspace γ :=
  w.travel (w.history.undo w.grid) "Undo" "Nothing to undo"

/-- Makes the change again that was taken back last. -/
def redo (w : Workspace γ) : Workspace γ :=
  w.travel w.history.redo "Redo" "Nothing to redo"

/-- Adds a row to the sheet. -/
def appendRow (w : Workspace γ) : Workspace γ :=
  let w := scheduleSave { w with dims := w.dims.moreRows 1 }
  w.say (toString w.dims.rows ++ " rows")

/-- Adds a column to the sheet. -/
def appendCol (w : Workspace γ) : Workspace γ :=
  let w := scheduleSave { w with dims := w.dims.moreCols 1 }
  w.say (toString w.dims.cols ++ " columns")

end Workspace

end Spreadsheet
