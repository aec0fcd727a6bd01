import Spreadsheet.Interchange.Lines
import Spreadsheet.Screen.Canvas
import Spreadsheet.Screen.HelpText

/-!
# Spreadsheet.Screen.Render — drawing a workspace

The header names the sheet, the selection and the save status.  The grid shows the values of the
cells in the window, with the active cell, the selection and errors marked.  The status box shows
the edited text, the prompt, or the last message; over the help text it says which keys scroll.
-/

namespace Spreadsheet

namespace Screen

variable {γ : Type}

/-! ### The window of cells -/

/-- One more than the last of the lines shown from line `first` on, when there is room for `size` of
`count` lines, if it can be counted in words. -/
def windowEnd? (first size count : Nat) : Option Nat :=
  (Word.add? first size).map fun stop => min stop count

/-- One more than the last row shown; none is shown if that cannot be counted. -/
def rowEnd (w : Workspace γ) (width height : Nat) : Nat :=
  (windowEnd? w.topRow (visibleRows width height) w.dims.rows).getD 0

/-- One more than the last column shown; none is shown if that cannot be counted. -/
def colEnd (w : Workspace γ) (width height : Nat) : Nat :=
  (windowEnd? w.leftCol (visibleCols width height w.columnWidth) w.dims.cols).getD 0

/-- Whether the window of cells can be drawn: the columns can be placed, and the ends of the window
are words. -/
def isDrawable (w : Workspace γ) (width height : Nat) : Bool :=
  isPlaceable w.columnWidth && (windowEnd? w.topRow (visibleRows width height) w.dims.rows).isSome &&
    (windowEnd? w.leftCol (visibleCols width height w.columnWidth) w.dims.cols).isSome

/-- The rows shown, from the top. -/
def shownRows (w : Workspace γ) (width height : Nat) : List Nat :=
  List.range' w.topRow (rowEnd w width height - w.topRow)

/-- The columns shown, from the left. -/
def shownCols (w : Workspace γ) (width height : Nat) : List Nat :=
  List.range' w.leftCol (colEnd w width height - w.leftCol)

/-- Where the `i`-th column shown stands inside the box `area`; a column that is too wide for the
screen is cut. -/
def columnArea (area : Area) (columnWidth i line : Nat) : Area :=
  let inner := area.inner
  let offset := rowNumberWidth + columnGap + i * (columnWidth + columnGap)
  ⟨inner.x + offset, inner.y + line, min columnWidth (inner.width - offset), 1⟩

/-- Where the number of a row stands inside the box `area`. -/
def rowNumberArea (area : Area) (line : Nat) : Area :=
  ⟨area.inner.x, area.inner.y + line, rowNumberWidth, 1⟩

/-! ### Parts of the screen -/

/-- The symbols of a text without line breaks. -/
def symbolsOf (cs : List Char) : List Symbol := cs.map .char

/-- A text on one line: its line breaks are left out. -/
def joinedLines (s : String) : List Symbol :=
  symbolsOf ((Interchange.unifyBreaks s.toList).filter (· != '\n'))

/-- The lines of a text. -/
def linesOf (s : String) : List (List Symbol) :=
  (Interchange.splitAt '\n' (Interchange.unifyBreaks s.toList)).map symbolsOf

/-- The colour of a save status. -/
def saveStateColor : SaveState → Color
  | .clean | .saved => .green
  | .pending => .yellow
  | .failed _ => .red

/-- Draws the header line.  It is never cut into lines, whatever the id of the sheet is. -/
def drawHeader (w : Workspace γ) (area : Area) (c : Canvas) : Canvas :=
  let before :=
    Symbol.ofText ("cellgrid | " ++ w.sheetId ++ " | " ++ w.selection.label ++ " | ").toList
  let rest : Area := ⟨area.x + before.length, area.y, area.width - before.length, area.height⟩
  ((c.tint area (.ink .cyan)).writeIn area before .left .plain).writeIn rest
    (Symbol.ofText w.saveState.text.toList) .left (.ink (saveStateColor w.saveState))

/-- The style of a row number or of column letters. -/
def headingStyle (isActive : Bool) : Style :=
  if isActive then ⟨some .black, some .lightBlue, false⟩ else .ink .yellow

/-- The style of a cell with this value. -/
def cellStyle (w : Workspace γ) (p : Position) (v : Value) : Style :=
  let base : Style :=
    if p = w.selection.active then ⟨some .white, some .blue, false⟩
    else if w.selection.covers p then .ground .darkGray
    else .plain
  let colored := if v.isError then (Style.ink .red).onto base else base
  { colored with underlined := p = w.selection.active && w.selection.isEditing }

/-- Numbers stand at the right, everything else at the left. -/
def valueAlignment : Value → Alignment
  | .number _ => .right
  | _ => .left

/-- Draws one cell of a table. -/
def drawCell (area : Area) (symbols : List Symbol) (align : Alignment) (s : Style) (c : Canvas) :
    Canvas :=
  (c.tint area s).writeIn area symbols align .plain

/-- Draws the column letters. -/
def drawColumnLetters (w : Workspace γ) (area : Area) (cols : List Nat) (c : Canvas) : Canvas :=
  cols.zipIdx.foldl
    (fun c col => drawCell (columnArea area w.columnWidth col.2 0) (symbolsOf (Column.letters col.1)) .center
      (headingStyle (col.1 = w.selection.active.col)) c) c

/-- Draws a row of cells with its number. -/
def drawRow (w : Workspace γ) (area : Area) (cols : List Nat) (line row : Nat) (c : Canvas) : Canvas :=
  let number := symbolsOf (Nat.toDigits 10 (Word.add row 1))
  let c := drawCell (rowNumberArea area line) number .left
    (headingStyle (row = w.selection.active.row)) c
  cols.zipIdx.foldl
    (fun c col =>
      let p : Position := ⟨row, col.1⟩
      let v := Formula.valueAt w.grid w.dims p
      drawCell (columnArea area w.columnWidth col.2 line) (joinedLines v.display) (valueAlignment v)
        (cellStyle w p v) c) c

/-- Draws the grid. -/
def drawGrid (w : Workspace γ) (width height : Nat) (c : Canvas) : Canvas :=
  let area := gridArea width height
  let cols := shownCols w width height
  let title := w.sheetId ++ " (" ++ toString w.dims.rows ++ "x" ++ toString w.dims.cols ++ ")"
  let c := drawColumnLetters w area cols (c.box area (joinedLines title))
  (shownRows w width height).zipIdx.foldl (fun c row => drawRow w area cols (row.2 + 1) row.1 c) c

/-- The text before the edited text. -/
def editLabel (entry : CellEdit) : List Char := entry.cell.idText ++ [':', ' ']

/-- What the status box says. -/
def statusText (w : Workspace γ) : String :=
  match w.mode with
  | .normal =>
    w.message.getD ("Enter: edit | Ctrl+C/X/V: copy/cut/paste | Ctrl+Z/Y: undo/redo | Ctrl+S: save | "
      ++ "Ctrl+E/L: CSV | F1/?: help | q: quit")
  | .help => "↑↓/jk: scroll | PgUp/PgDn: fast scroll | Home: top | Esc/q: close help"
  | .exportPrompt =>
    "Export CSV as: " ++ w.fileName.text ++ " (Enter to export, Esc to cancel)"
  | .importPrompt =>
    "Import CSV from: " ++ w.fileName.text ++ " (Enter to import, Esc to cancel)"

/-- The style of the status box. -/
def statusStyle (mode : Mode) : Style :=
  match mode with
  | .normal => .plain
  | .help => .ink .cyan
  | .exportPrompt => .ink .magenta
  | .importPrompt => .ink .green

/-- Draws a box with lines of text in one style. -/
def drawTextBox (area : Area) (title : String) (lines : List (List Symbol)) (s : Style)
    (c : Canvas) : Canvas :=
  ((c.tint area s).box area (symbolsOf title.toList)).writeLines area.inner lines

/-- Draws the status box. -/
def drawStatus (w : Workspace γ) (area : Area) (c : Canvas) : Canvas :=
  match w.selection.entry? with
  | some entry =>
    drawTextBox area "Editing (Enter to commit, Esc to cancel)"
      (linesOf (String.ofList (editLabel entry ++ entry.field.chars))) (.ink .green) c
  | none => drawTextBox area "Status" (linesOf (statusText w)) (statusStyle w.mode) c

/-- Where the help text stands. -/
def helpArea (width height : Nat) : Area :=
  ⟨width / 10, height / 10, width * 4 / 5, height * 4 / 5⟩

/-- The first line of the help text shown, when `size` lines fit: not so far down that lines stay
empty. -/
def helpStart (scroll size : Nat) : Nat := min scroll (helpLines.length - size)

/-- Draws the help text over the rest. -/
def drawHelp (scroll width height : Nat) (c : Canvas) : Canvas :=
  let area := helpArea width height
  let size := area.height - 2
  let start := helpStart scroll size
  let title :=
    "cellgrid Help (Line " ++ toString (start + 1) ++ "/" ++ toString helpLines.length ++ ")"
  let lines := ((helpLines.drop start).take size).map fun l => symbolsOf l.toList
  let c := ((c.clear area).tint area (.ink .cyan)).box area (symbolsOf title.toList)
  (c.tint area.inner (.ink .white)).writeLines area.inner lines

/-! ### The whole screen -/

/-- Draws a workspace on a screen of this size. -/
def draw (w : Workspace γ) (width height : Nat) : Canvas :=
  let c := drawHeader w (headerArea width height) (Canvas.blank width height)
  let c := drawStatus w (statusArea width height) (drawGrid w width height c)
  if w.mode = .help then drawHelp w.helpLine width height c else c

/-- Draws a workspace, if the program has not stopped and its window can be drawn. -/
def draw? (w : Workspace γ) (width height : Nat) : Option Canvas :=
  if !w.stopped && isDrawable w width height then some (draw w width height) else none

/-- Where the cursor stands while a cell is edited.  The column of the character behind the label and
the text left of the cursor is counted in 16 bits, and the border is not crossed. -/
def cursor? (w : Workspace γ) (width height : Nat) : Option (Nat × Nat) :=
  w.selection.entry?.map fun entry =>
    let area := statusArea width height
    let x := Word.shortAdd (Word.shortAdd area.x 1)
      (Word.short ((editLabel entry).length + entry.field.cursor))
    (min x (area.x + area.width - 2), Word.shortAdd area.y 1)

end Screen

end Spreadsheet
