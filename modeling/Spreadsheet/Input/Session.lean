import Spreadsheet.Input.Pointer

/-!
# Spreadsheet.Input.Session — a workspace on a screen

A session takes the events of the keyboard, the mouse and the screen one after the other.  The
window of cells follows the size of the screen, and saves that are due are made before and after
every event.
-/

namespace Spreadsheet

/-- What can happen to a session. -/
inductive Event where
  | key (key : Key) (mods : Modifiers)
  | pointer (e : PointerEvent)
  /-- The screen has this size. -/
  | screen (width height : Nat)
deriving DecidableEq, Repr

/-- Whether an event tells the size of the screen. -/
def Event.isScreen : Event → Bool
  | screen .. => true
  | _ => false

/-- A workspace and the size of the screen that shows it. -/
structure Session (γ : Type) where
  workspace : Workspace γ
  width : Nat
  height : Nat

namespace Session

variable {γ : Type}

/-- Fits the window of cells to the screen.  Columns that cannot be placed stop the program. -/
def fit (s : Session γ) : Session γ :=
  match Screen.capacity? s.width s.height s.workspace.columnWidth with
  | some (rows, cols) => { s with workspace := s.workspace.resize rows cols }
  | none => { s with workspace := s.workspace.stop }

/-- Takes one event, and tells whether it ends the program. -/
def receive [Archive γ] (s : Session γ) : Event → Bool × Session γ
  | .key key mods =>
    let r := s.workspace.useKey key mods
    (r.1, { s with workspace := r.2 })
  | .pointer e => (false, { s with workspace := s.workspace.usePointer e s.width s.height })
  | .screen width height => (false, fit { s with width, height })

/-- Makes a save that is due at time `now`. -/
def rest [Archive γ] (s : Session γ) (now : Nat) : Session γ :=
  { s with workspace := (s.workspace.tick now).2 }

/-- Takes an event at time `now`, and tells whether it ends the program. -/
def turn [Archive γ] (s : Session γ) (now : Nat) (e : Event) : Bool × Session γ :=
  let s := fit (s.rest now)
  match receive { s with workspace := { s.workspace with clock := now } } e with
  | (true, s) => (true, s)
  | (false, s) => (false, (s.rest now).fit)

/-- Leaves the workspace. -/
def close [Archive γ] (s : Session γ) : Session γ := { s with workspace := s.workspace.close }

/-- What was written has not reached the disk, for this reason: the files are as they were
before. -/
def notStored (s : Session γ) (before : FileSystem) (reason : String) : Session γ :=
  { s with
    workspace :=
      { s.workspace with
        files := before
        saveState := .failed reason
        message := some ("Write failed: " ++ reason) } }

/-- The path of the file that an event may read or write: the one in a prompt that it confirms. -/
def path? (s : Session γ) : Event → Option String
  | .key .enter _ =>
    if s.workspace.selection.isEditing then none
    else
      match s.workspace.mode with
      | .exportPrompt | .importPrompt => some s.workspace.promptPath
      | _ => none
  | _ => none

end Session

end Spreadsheet
