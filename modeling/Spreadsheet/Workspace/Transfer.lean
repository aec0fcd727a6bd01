import Spreadsheet.Files.TableFile
import Spreadsheet.Workspace.State

/-!
# Spreadsheet.Workspace.Transfer — importing and exporting through a prompt

A prompt asks for the name of a file, and confirming it exports the sheet to the file or replaces
the sheet by the file's table.  A transfer that fails changes nothing but the message.
-/

namespace Spreadsheet

namespace Workspace

variable {γ : Type}

/-- The file name offered for an export. -/
def exportName (w : Workspace γ) : String := fileStem w.sheetId ++ ".csv"

/-- Asks for the file to export to. -/
def askExport (w : Workspace γ) : Workspace γ :=
  { w with mode := .exportPrompt, fileName := TextField.ofText w.exportName, message := none }

/-- Asks for the file to import. -/
def askImport (w : Workspace γ) : Workspace γ :=
  { w with mode := .importPrompt, fileName := TextField.ofText "data.csv", message := none }

/-- Closes the prompt. -/
def closePrompt (w : Workspace γ) : Workspace γ :=
  { w with mode := .normal, fileName := TextField.empty }

/-- Changes the file name in the prompt. -/
def editFileName (w : Workspace γ) (f : TextField → TextField) : Workspace γ :=
  { w with fileName := f w.fileName }

/-- Exports the sheet, and tells whether that worked. -/
def exportTable (w : Workspace γ) (path : String) : Bool × Workspace γ :=
  match TableFile.write w.files path w.grid w.dims with
  | .ok files => (true, say { w with files } ("Exported to " ++ path))
  | .error e => (false, w.say ("Export failed: " ++ e.message))

/-- Replaces the sheet by an imported table.  The sheet grows to the table's size if it is smaller. -/
def adopt (w : Workspace γ) (t : Table) : Workspace γ :=
  let dims := if 0 < t.rows ∧ 0 < t.cols then w.dims.including ⟨t.rows - 1, t.cols - 1⟩ else w.dims
  let w := match change { w with dims } t.grid with
    | (true, w) => w
    | (false, w) => w.scheduleSave
  { w with selection := Selection.start, topRow := 0, leftCol := 0 }

/-- Imports a file, and tells whether that worked. -/
def importTable (w : Workspace γ) (path : String) : Bool × Workspace γ :=
  match TableFile.read w.files path with
  | .ok t => (true, (w.adopt t).say ("Imported " ++ path))
  | .error e => (false, w.say ("Import failed: " ++ e.message))

/-- The path that the prompt asks for: its trimmed text, or the name offered for an export if that
is empty. -/
def promptPath (w : Workspace γ) : String :=
  let name := Text.trimmed w.fileName.text
  if name.isEmpty && w.mode = .exportPrompt then w.exportName else name

/-- Does what the prompt is for and closes it.  Without a path nothing is imported. -/
def confirm (w : Workspace γ) : Workspace γ :=
  let path := w.promptPath
  let w := match w.mode with
    | .exportPrompt => (w.exportTable path).2
    | .importPrompt => if path.isEmpty then w else (w.importTable path).2
    | _ => w
  w.closePrompt

end Workspace

end Spreadsheet
