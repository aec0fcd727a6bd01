import Spreadsheet.Input.Keyboard
import Spreadsheet.Screen.Layout

/-!
# Spreadsheet.Input.Pointer — what the mouse does

The left button selects, and the wheel moves the active cell.  Away from the cells the pointer does
nothing, and neither does it over help and prompts.
-/

namespace Spreadsheet

/-- What the mouse did. -/
inductive PointerAction where
  /-- The left button was pressed, moved while pressed, or released. -/
  | press | drag | release
  | wheelDown | wheelUp
  /-- Anything else. -/
  | other
deriving DecidableEq, Repr

/-- An event of the mouse at a point of a screen. -/
structure PointerEvent where
  action : PointerAction
  x : Nat
  y : Nat
  mods : Modifiers
deriving DecidableEq, Repr

namespace Workspace

variable {γ : Type}

/-- The mouse was used on a screen of this size.  If it points among columns that cannot be placed, or
at a cell that is counted beyond the words, the program stops. -/
def usePointer (w : Workspace γ) (e : PointerEvent) (width height : Nat) : Workspace γ :=
  if w.mode = .normal then
    match e.action with
    | .press =>
      match Screen.hit? w width height e.x e.y with
      | some (some p) => w.press p e.mods.shift
      | some none => w
      | none => w.stop
    | .drag =>
      match Screen.hit? w width height e.x e.y with
      | some (some p) => w.drag p
      | some none => w
      | none => w.stop
    | .release => w.release
    | .wheelDown => w.step .down false
    | .wheelUp => w.step .up false
    | .other => w
  else w

end Workspace

end Spreadsheet
