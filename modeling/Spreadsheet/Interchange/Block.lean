import Spreadsheet.Dimensions
import Spreadsheet.Grid
import Spreadsheet.Interchange.Lines

/-!
# Spreadsheet.Interchange.Block — rectangles of cells as text

On the clipboard a rectangle of cells is a line of text per row, with tabs between the cells.
`blockText` writes a rectangle of the grid; `paste` writes the fields of a text into the grid, with
the first one at a given cell.  Both move raw texts: formulas stay formulas.
-/

namespace Spreadsheet

namespace Interchange

/-- The text of a rectangle of cells. -/
def blockText (r : Range) (g : Grid) : String :=
  let b := r.rect
  let line (row : Nat) : List Char :=
    joinWith '\t' (b.cols.map fun col => (g.textAt ⟨row, col⟩).toList)
  String.ofList (joinWith '\n' (b.rows.map line))

/-- A text without one line break at its end. -/
def dropFinalBreak (cs : List Char) : List Char :=
  if cs.getLast? = some '\n' then cs.dropLast else cs

/-- The fields of a text, line by line. -/
def fieldRows (text : String) : List (List String) :=
  (splitAt '\n' (dropFinalBreak (unifyBreaks text.toList))).map fun line =>
    (splitAt '\t' line).map String.ofList

/-- The fields of one line with their places from `p` to the right, if these are words. -/
def placedLine? (p : Position) (fields : List String) : Option (List (Position × String)) :=
  fields.zipIdx.mapM fun f => (Word.add? p.col f.2).map fun col => (⟨p.row, col⟩, f.1)

/-- The fields of lines with their places from `p` to the right and downwards, if these are words. -/
def placedRows? (p : Position) (rows : List (List String)) : Option (List (Position × String)) :=
  (rows.zipIdx.mapM fun r =>
    (Word.add? p.row r.2).bind fun row => placedLine? ⟨row, p.col⟩ r.1).map List.flatten

/-- Writes lines of fields from `p` to the right and downwards, as far as the sheet goes. -/
def pasteRows? (dims : Dimensions) (p : Position) (g : Grid) (rows : List (List String)) :
    Option Grid :=
  (placedRows? p rows).map fun cells => g.write (cells.filter fun e => dims.contains e.1)

/-- The length of the longest line. -/
def widest (rows : List (List String)) : Nat := rows.foldl (fun n r => max n r.length) 0

/-- The number `count - 1` places after `first`, or the last one of a sheet that has fewer.  The
number behind it has to be a word too. -/
def farEdge? (first count size : Nat) : Option Nat := do
  let behind ← Word.add? first count
  let last ← Word.sub? behind 1
  return min last (size - 1)

/-- Writes the fields of a text, the first one at `origin`; empty fields clear their cells, and what
would lie off the sheet is dropped.  Tells the rectangle that was covered, or nothing if the origin
is off the sheet.  There is no result if a place or the end of the block is counted beyond the
words. -/
def paste? (text : String) (origin : Position) (g : Grid) (dims : Dimensions) :
    Option (Option Range × Grid) :=
  if dims.contains origin then do
    let rows := fieldRows text
    let pasted ← pasteRows? dims origin g rows
    let bottom ← farEdge? origin.row rows.length dims.rows
    let right ← farEdge? origin.col (widest rows) dims.cols
    return (some ⟨origin, ⟨bottom, right⟩⟩, pasted)
  else some (none, g)

/-- What a paste comes to; nothing where it has no result. -/
def paste (text : String) (origin : Position) (g : Grid) (dims : Dimensions) :
    Option Range × Grid :=
  (paste? text origin g dims).getD (none, g)

end Interchange

end Spreadsheet
