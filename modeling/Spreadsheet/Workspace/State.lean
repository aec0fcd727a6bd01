import Spreadsheet.Archive
import Spreadsheet.Clipboard
import Spreadsheet.Formula.Evaluation
import Spreadsheet.History
import Spreadsheet.Selection
import Spreadsheet.Settings

/-!
# Spreadsheet.Workspace.State — an open sheet and everything around it

A workspace is a sheet that is being worked on: its cells and size, what is selected, the history,
the window that is shown, prompts and messages, and the pending save.  It is opened from an archive
and saved to it.  `change` is the one way in which gestures change cells: it records the cells
before in the history and starts the quiet period of the save.  Where a sum leaves the words the
program stops; that is noted in the workspace and never taken back.
-/

namespace Spreadsheet

/-- What lies over the grid. -/
inductive Mode where
  /-- Nothing. -/
  | normal
  | help
  /-- The prompt for the file to export to. -/
  | exportPrompt
  /-- The prompt for the file to import. -/
  | importPrompt
deriving DecidableEq, Repr

/-- How the sheet in the workspace relates to the saved one. -/
inductive SaveState where
  /-- Nothing has changed since it was opened. -/
  | clean
  /-- A save is pending. -/
  | pending
  | saved
  /-- The last save failed. -/
  | failed (reason : String)
deriving DecidableEq, Repr

/-- How the state of saving is shown. -/
def SaveState.text : SaveState → String
  | clean => "clean"
  | pending => "unsaved"
  | saved => "saved"
  | failed reason => "save error: " ++ reason

/-- A sheet that is being worked on, kept by an archive of type `γ`. -/
structure Workspace (γ : Type) where
  sheetId : String
  grid : Grid
  dims : Dimensions
  selection : Selection
  history : History Grid
  mode : Mode
  /-- What the last gesture has to say. -/
  message : Option String
  saveState : SaveState
  /-- The first row and column shown. -/
  topRow : Nat
  leftCol : Nat
  /-- How many rows and columns are shown. -/
  viewRows : Nat
  viewCols : Nat
  columnWidth : Nat
  /-- The file name in a prompt. -/
  fileName : TextField
  /-- The first line of the help text shown. -/
  helpLine : Nat
  savesOnExit : Bool
  timer : SaveTimer
  archive : γ
  clipboard : Clipboard
  files : FileSystem
  /-- The time of the gesture at hand, in milliseconds. -/
  clock : Nat
  /-- Whether a sum has left the words, or columns could not be placed.  Then the program has stopped,
  and what the rest of the workspace says means nothing any more. -/
  stopped : Bool

namespace Workspace

variable {γ : Type}

/-- A workspace with this sheet, in which nothing has happened. -/
def fresh (o : Options) (archive : γ) (files : FileSystem) (grid : Grid) (dims : Dimensions)
    (message : Option String) : Workspace γ where
  sheetId := o.sheetId
  grid := grid
  dims := dims
  selection := Selection.start
  history := History.keeping o.historyLimit
  mode := .normal
  message := message
  saveState := .clean
  topRow := 0
  leftCol := 0
  viewRows := 20
  viewCols := 8
  columnWidth := o.columnWidth
  fileName := TextField.empty
  helpLine := 0
  savesOnExit := o.savesOnExit
  timer := SaveTimer.idle o.saveDelay
  archive := archive
  clipboard := Clipboard.blank
  files := files
  clock := 0
  stopped := false

/-- Stops the program. -/
def stop (w : Workspace γ) : Workspace γ := { w with stopped := true }

/-- Opens a sheet.  One that was never saved is empty; so is one that cannot be loaded, and the
message says why.  The program stops if the size of a saved one is not in words. -/
def «open» [Archive γ] (o : Options) (archive : γ) (files : FileSystem) : Workspace γ :=
  match Archive.load archive files o.sheetId with
  | .ok (some s) =>
    { fresh o archive files s.grid s.dims none with stopped := s.dims?.isNone }
  | .ok none => fresh o archive files Grid.empty o.dims none
  | .error e => fresh o archive files Grid.empty o.dims (some ("Load failed: " ++ e.message))

/-- Sets the message. -/
def say (w : Workspace γ) (s : String) : Workspace γ := { w with message := some s }

/-- The text shown in a cell. -/
def shownAt (w : Workspace γ) (p : Position) : String :=
  (Formula.valueAt w.grid w.dims p).display

/-! ### Changing and saving -/

/-- Starts the quiet period after which the sheet is saved. -/
def scheduleSave (w : Workspace γ) : Workspace γ :=
  { w with timer := w.timer.restart w.clock, saveState := .pending }

/-- Replaces the cells, and tells whether that changes anything. -/
def change (w : Workspace γ) (g : Grid) : Bool × Workspace γ :=
  if g = w.grid then (false, w)
  else (true, scheduleSave { w with grid := g, history := w.history.push w.grid })

/-- What is saved. -/
def document (w : Workspace γ) : Document := Document.ofSheet w.grid w.dims

/-- Hands the whole sheet to the archive. -/
def save [Archive γ] (w : Workspace γ) : Workspace γ :=
  let (result, archive, files) := Archive.save w.archive w.files w.sheetId w.document
  let saveState := match result with
    | .ok () => .saved
    | .error e => .failed e.message
  { w with archive, files, saveState }

/-- Saves the sheet if a save is due at time `now`, and tells whether it was. -/
def tick [Archive γ] (w : Workspace γ) (now : Nat) : Bool × Workspace γ :=
  let (due, timer) := w.timer.fire now
  if due then (true, save { w with timer }) else (false, w)

/-- Saves the sheet at once. -/
def saveAtOnce [Archive γ] (w : Workspace γ) : Workspace γ :=
  let w := save { w with timer := w.timer.cancel.2 }
  match w.saveState with
  | .failed reason => w.say ("Save failed: " ++ reason)
  | _ => w.say ("Saved " ++ w.sheetId)

/-- Leaves the workspace.  A pending save is made or dropped, as the options say. -/
def close [Archive γ] (w : Workspace γ) : Workspace γ :=
  let (pending, timer) := w.timer.cancel
  let w := { w with timer }
  if pending && w.savesOnExit then w.save else w

/-! ### The window -/

/-- The first line of a window of `size` lines that shows line `active`, as near as possible to
`first`, if it can be counted in words. -/
def scrolled? (first active size : Nat) : Option Nat :=
  if active < first then some active
  else do
    let behind ← Word.add? first size
    if behind ≤ active then
      let next ← Word.add? active 1
      Word.sub? next size
    else return first

/-- The first line of the window; the one before where there is no other. -/
def scrolled (first active size : Nat) : Nat := (scrolled? first active size).getD first

/-- Scrolls just so far that the active cell is shown. -/
def reveal (w : Workspace γ) : Workspace γ :=
  let active := w.selection.active
  { w with
    topRow := scrolled w.topRow active.row w.viewRows
    leftCol := scrolled w.leftCol active.col w.viewCols
    stopped :=
      w.stopped || (scrolled? w.topRow active.row w.viewRows).isNone ||
        (scrolled? w.leftCol active.col w.viewCols).isNone }

/-- Sets how many rows and columns are shown. -/
def resize (w : Workspace γ) (rows cols : Nat) : Workspace γ :=
  reveal { w with viewRows := max rows 1, viewCols := max cols 1 }

end Workspace

end Spreadsheet
