import Spreadsheet.Screen.Render

/-!
# Spreadsheet.Terminal.Frame — what a terminal is sent

A frame is the text that makes a terminal show a canvas: every line in its place, and before every
run of equal styles the sequence that selects the style.
-/

namespace Spreadsheet

namespace Terminal

/-- The start of every sequence. -/
def introducer : String := "\x1B["

/-- The number of a colour for characters; for the ground it is ten more. -/
def colorNumber : Color → Nat
  | .black => 30
  | .red => 31
  | .green => 32
  | .yellow => 33
  | .blue => 34
  | .magenta => 35
  | .cyan => 36
  | .white => 97
  | .darkGray => 90
  | .lightBlue => 94

/-- The sequence that selects a style and nothing else. -/
def styleText (s : Style) : String :=
  let ink := (s.foreground.map fun c => ";" ++ toString (colorNumber c)).getD ""
  let ground := (s.background.map fun c => ";" ++ toString (colorNumber c + 10)).getD ""
  introducer ++ "0" ++ ink ++ ground ++ (if s.underlined then ";4" else "") ++ "m"

/-- The sequence that moves the cursor to a point. -/
def moveText (x y : Nat) : String :=
  introducer ++ toString (y + 1) ++ ";" ++ toString (x + 1) ++ "H"

/-- The text of a line. -/
def lineText (y : Nat) (glyphs : List Glyph) : String :=
  let run (r : StyleRun) : String :=
    let chars := ((glyphs.drop r.x).take r.length).flatMap fun g => g.symbol.chars
    styleText r.style ++ String.ofList chars
  moveText 0 y ++ String.join ((styleRuns 0 glyphs).map run)

/-- The sequence that hides the cursor, or shows it at a point. -/
def cursorText : Option (Nat × Nat) → String
  | none => introducer ++ "?25l"
  | some p => moveText p.1 p.2 ++ introducer ++ "?25h"

/-- The text that shows a workspace, if it can be drawn. -/
def frame? {γ : Type} (w : Workspace γ) (width height : Nat) : Option String :=
  (Screen.draw? w width height).map fun canvas =>
    String.join ((List.range height).map fun y => lineText y (canvas.line y))
      ++ cursorText (Screen.cursor? w width height)

/-- The sequences that switch to the other screen and ask for reports of the mouse. -/
def enterText : String := introducer ++ "?1049h" ++ introducer ++ "?1002h" ++ introducer ++ "?1006h"

/-- The sequences that undo `enterText`. -/
def leaveText : String :=
  introducer ++ "0m" ++ introducer ++ "?1006l" ++ introducer ++ "?1002l" ++ introducer ++ "?25h"
    ++ introducer ++ "?1049l"

/-- The question where the lower right corner of the screen is. -/
def sizeQuestion : String := moveText 9998 9998 ++ introducer ++ "6n"

end Terminal

end Spreadsheet
