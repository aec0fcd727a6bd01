import Spreadsheet.Workspace.Gestures
import Spreadsheet.Workspace.Transfer

/-!
# Spreadsheet.Input.Keyboard — what the keys do

A key goes to the edit in progress if there is one, and otherwise to what the mode says: the grid,
the help text or the prompt.
-/

namespace Spreadsheet

/-- The keys that mean something. -/
inductive Key where
  | char (c : Char)
  | enter | escape | backspace | delete | up | down | left | right | home | «end» | pageUp | pageDown
  | function (n : Nat)
  /-- Any other key. -/
  | other
deriving DecidableEq, Repr

/-- The modifier keys held down. -/
structure Modifiers where
  control : Bool
  shift : Bool
  alt : Bool
deriving DecidableEq, Repr

namespace Modifiers

/-- No modifier key. -/
def none : Modifiers := ⟨false, false, false⟩

end Modifiers

namespace Workspace

variable {γ : Type}

/-- Whether a key ends the program: `q`, in the grid. -/
def quits (w : Workspace γ) (key : Key) (mods : Modifiers) : Bool :=
  key = .char 'q' && !mods.control && w.mode = .normal && !w.selection.isEditing

/-- A key in the edited text.  With control it does nothing. -/
def editingKey (w : Workspace γ) (key : Key) (mods : Modifiers) : Workspace γ :=
  if mods.control then w
  else
    match key with
    | .enter => w.commitAndStep
    | .escape => w.dropEdit
    | .backspace => w.edit TextField.backspace
    | .delete => w.edit TextField.delete
    | .left => w.edit TextField.left
    | .right => w.edit TextField.right
    | .home => w.edit TextField.home
    | .end => w.edit TextField.toEnd
    | .char c => w.edit (·.insert c)
    | _ => w

/-- A key in the grid, with control. -/
def shortcut [Archive γ] (w : Workspace γ) (c : Char) : Workspace γ :=
  match c with
  | 'c' => w.copy.2
  | 'x' => w.cut.2
  | 'v' => w.paste.2
  | 'z' => w.undo
  | 'y' => w.redo
  | 's' => w.saveAtOnce
  | 'e' => w.askExport
  | 'l' => w.askImport
  | 'r' => w.appendRow
  | 't' => w.appendCol
  | 'a' => w.chooseAll
  | _ => w

/-- A key in the grid, without control. -/
def gridKey (w : Workspace γ) (key : Key) (shift : Bool) : Workspace γ :=
  let w := { w with message := none }
  match key with
  | .up | .char 'k' => w.step .up shift
  | .down | .char 'j' => w.step .down shift
  | .left | .char 'h' => w.step .left shift
  | .right | .char 'l' => w.step .right shift
  | .char 'K' => w.step .up true
  | .char 'J' => w.step .down true
  | .char 'H' => w.step .left true
  | .char 'L' => w.step .right true
  | .enter | .function 2 => w.editActive
  | .delete | .backspace => w.clearRegion.2
  | .function 1 | .char '?' => { w with mode := .help, helpLine := 0 }
  | .escape => w.dropEdit
  | _ => w

/-- A key in the grid. -/
def normalKey [Archive γ] (w : Workspace γ) (key : Key) (mods : Modifiers) : Workspace γ :=
  if mods.control then
    match key with
    | .char c => w.shortcut c
    | _ => w
  else w.gridKey key mods.shift

/-- A key over the help text. -/
def helpKey (w : Workspace γ) (key : Key) : Workspace γ :=
  match key with
  | .escape | .function 1 | .char '?' | .char 'q' => { w with mode := .normal }
  | .up | .char 'k' => { w with helpLine := w.helpLine - 1 }
  | .down | .char 'j' => { w with helpLine := Word.add w.helpLine 1 }
  | .pageUp => { w with helpLine := w.helpLine - 5 }
  | .pageDown => { w with helpLine := Word.add w.helpLine 5 }
  | .home => { w with helpLine := 0 }
  | _ => w

/-- A key in a prompt. -/
def promptKey (w : Workspace γ) (key : Key) : Workspace γ :=
  match key with
  | .enter => w.confirm
  | .escape => w.closePrompt
  | .backspace => w.editFileName TextField.backspace
  | .delete => w.editFileName TextField.delete
  | .left => w.editFileName (·.move (-1))
  | .right => w.editFileName (·.move 1)
  | .home => w.editFileName TextField.home
  | .end => w.editFileName TextField.toEnd
  | .char c => w.editFileName (·.insert c)
  | _ => w

/-- A key is pressed. -/
def pressKey [Archive γ] (w : Workspace γ) (key : Key) (mods : Modifiers) : Workspace γ :=
  if w.selection.isEditing then w.editingKey key mods
  else
    match w.mode with
    | .normal => w.normalKey key mods
    | .help => w.helpKey key
    | .exportPrompt | .importPrompt => w.promptKey key

/-- Uses a key, unless it ends the program, and tells whether it does. -/
def useKey [Archive γ] (w : Workspace γ) (key : Key) (mods : Modifiers) : Bool × Workspace γ :=
  if w.quits key mods then (true, w) else (false, w.pressKey key mods)

end Workspace

end Spreadsheet
