import Spreadsheet.Workspace.State

/-!
# Spreadsheet.Screen.Layout — where things are on the screen

The screen is split into a header line, the grid in a box, and a status box of three lines.  Inside
the box, one line holds the column letters and five characters the row numbers; every column takes
its width and a gap of one character.  Screen coordinates are 16-bit words, counted from the upper
left corner.
-/

namespace Spreadsheet

/-- A rectangle on the screen. -/
structure Area where
  x : Nat
  y : Nat
  width : Nat
  height : Nat
deriving DecidableEq, Repr

namespace Screen

/-- Width of the row numbers. -/
def rowNumberWidth : Nat := 5

/-- The gap between columns. -/
def columnGap : Nat := 1

/-- The header line, the first one. -/
def headerArea (width height : Nat) : Area := ⟨0, 0, width, min height 1⟩

/-- The box of the grid: what the header and the status box leave. -/
def gridArea (width height : Nat) : Area := ⟨0, min height 1, width, height - 4⟩

/-- The status box, the last three lines. -/
def statusArea (width height : Nat) : Area := ⟨0, 1 + (height - 4), width, min (height - 1) 3⟩

/-- How far one column is from the next. -/
def pitch (columnWidth : Nat) : Nat := Word.shortAdd columnWidth columnGap

/-- Whether columns of this width can stand side by side; the largest width leaves them no pitch. -/
def isPlaceable (columnWidth : Nat) : Bool := pitch columnWidth ≠ 0

/-- How many rows fit on a screen; at least one. -/
def visibleRows (width height : Nat) : Nat := max ((gridArea width height).height - 3) 1

/-- How many columns fit on a screen; at least one. -/
def visibleCols (width height columnWidth : Nat) : Nat :=
  max (((gridArea width height).width - (2 + rowNumberWidth)) / pitch columnWidth) 1

/-- How many rows and columns fit on a screen, if the columns can be placed. -/
def capacity? (width height columnWidth : Nat) : Option (Nat × Nat) :=
  if isPlaceable columnWidth then
    some (visibleRows width height, visibleCols width height columnWidth)
  else none

/-- The first screen line with cells. -/
def firstCellY (area : Area) : Nat := Word.shortAdd area.y 2

/-- The first screen column with cells. -/
def firstCellX (area : Area) : Nat :=
  Word.shortAdd (Word.shortAdd (Word.shortAdd area.x 1) rowNumberWidth) columnGap

/-- The screen line of the lower border. -/
def bottomEdge (area : Area) : Nat := Word.shortAdd area.y (area.height - 1)

/-- The screen column of the right border. -/
def rightEdge (area : Area) : Nat := Word.shortAdd area.x (area.width - 1)

/-- Whether a point lies where the box `area` shows cells. -/
def isAmongCells (area : Area) (x y : Nat) : Bool :=
  firstCellY area ≤ y && y < bottomEdge area && firstCellX area ≤ x && x < rightEdge area

/-- The cell at a point of the screen, if there is one.  Among the cells there is no result if the
columns cannot be placed or the cell is counted beyond the words. -/
def hit? {γ : Type} (w : Workspace γ) (width height x y : Nat) : Option (Option Position) :=
  let area := gridArea width height
  if isAmongCells area x y then
    if isPlaceable w.columnWidth then do
      let row ← Word.add? w.topRow (y - firstCellY area)
      let col ← Word.add? w.leftCol ((x - firstCellX area) / pitch w.columnWidth)
      return if w.dims.contains ⟨row, col⟩ then some ⟨row, col⟩ else none
    else none
  else some none

/-- The cell at a point of the screen, if there is one. -/
def cellUnder {γ : Type} (w : Workspace γ) (width height x y : Nat) : Option Position :=
  (hit? w width height x y).join

end Screen

end Spreadsheet
