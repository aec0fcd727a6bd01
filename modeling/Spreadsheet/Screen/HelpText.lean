/-!
# Spreadsheet.Screen.HelpText — the text of the help screen

What the program says about itself, line by line.
-/

namespace Spreadsheet

namespace Screen

/-- The lines of the help text. -/
def helpLines : List String :=
  [
    "CELLGRID REFERENCE",
    "",
    "=== VALUES ===",
    "• Text that parses as a number is a number (42, 3.14, -5.5)",
    "• Anything else is shown as typed",
    "• Text starting with = is a formula",
    "",
    "=== FORMULAS ===",
    "Cell references use column letters + row number (A1, B2, AA10)",
    "+ - * /         Arithmetic with parentheses     =(A1+B1)*2",
    "SUM(A1:B3)      Total of numeric cells",
    "AVERAGE(A1:B3)  Mean of numeric cells (0 if none)",
    "COUNT(A1:B3)    Number of numeric cells",
    "MAX(A1:B3)      Largest numeric cell (0 if none)",
    "MIN(A1:B3)      Smallest numeric cell (0 if none)",
    "Results are rounded to 4 decimal places.",
    "Empty cells count as 0 when referenced directly.",
    "",
    "=== ERRORS ===",
    "#REF!           Bad address, out-of-grid range, or circular reference",
    "#NAME?          Unsupported function or non-numeric value in arithmetic",
    "#ERROR!         Division by zero or malformed arithmetic",
    "",
    "=== SELECTION ===",
    "Arrow keys/hjkl Move the active cell",
    "Shift+arrows    Extend the selection",
    "Mouse drag      Select a range (Shift+click extends)",
    "Ctrl+A          Select the whole grid",
    "",
    "=== EDITING ===",
    "Enter/F2        Edit active cell",
    "Enter           Commit and move down",
    "Esc             Cancel the edit",
    "Delete/Bksp     Clear the selection",
    "Ctrl+C/X/V      Copy/cut/paste (tab-separated raw values)",
    "Ctrl+Z/Ctrl+Y   Undo/redo",
    "Ctrl+R/Ctrl+T   Add a row/column",
    "",
    "=== FILES ===",
    "Ctrl+S          Save now (changes also save after a short pause)",
    "Ctrl+E          Export the whole grid to CSV",
    "Ctrl+L          Import a .csv file (replaces the grid, undoable)",
    "",
    "=== HELP NAVIGATION ===",
    "↑↓ or j/k       Scroll help text up/down one line",
    "Page Up/Down    Scroll help text up/down 5 lines",
    "Home            Jump to top of help text",
    "Esc/F1/?/q      Close this help window",
    "",
    "q               Quit"
  ]

end Screen

end Spreadsheet
