import Spreadsheet.Address.Position
import Spreadsheet.Text.Blank

/-!
# Spreadsheet.Address.Range — two corners and the rectangle between them

A range keeps its two corners as they were given.  `rect` is the rectangle they span, with all
four edges included, whichever two opposite corners they are.
-/

namespace Spreadsheet

/-- A rectangle of cells, all edges included. -/
structure Rect where
  top : Nat
  bottom : Nat
  left : Nat
  right : Nat
deriving DecidableEq, Repr

namespace Rect

/-- Number of rows, if it is a 64-bit word. -/
def height? (b : Rect) : Option Nat := Word.add? (b.bottom - b.top) 1

/-- Number of columns, if it is a 64-bit word. -/
def width? (b : Rect) : Option Nat := Word.add? (b.right - b.left) 1

/-- Whether a position lies in the rectangle. -/
def contains (b : Rect) (p : Position) : Bool :=
  b.top ≤ p.row && p.row ≤ b.bottom && b.left ≤ p.col && p.col ≤ b.right

/-- The row numbers of the rectangle, ascending. -/
def rows (b : Rect) : List Nat := List.range' b.top (b.bottom + 1 - b.top)

/-- The column numbers of the rectangle, ascending. -/
def cols (b : Rect) : List Nat := List.range' b.left (b.right + 1 - b.left)

/-- All positions of the rectangle in reading order. -/
def positions (b : Rect) : List Position :=
  b.rows.flatMap fun row => b.cols.map fun col => ⟨row, col⟩

end Rect

/-- Two corner positions, as given. -/
structure Range where
  start : Position
  stop : Position
deriving DecidableEq, Repr

namespace Range

/-- The range of one cell. -/
def single (p : Position) : Range := ⟨p, p⟩

/-- The rectangle that the corners span. -/
def rect (r : Range) : Rect where
  top := min r.start.row r.stop.row
  bottom := max r.start.row r.stop.row
  left := min r.start.col r.stop.col
  right := max r.start.col r.stop.col

/-- Whether a position lies in the range's rectangle. -/
def contains (r : Range) (p : Position) : Bool := r.rect.contains p

/-- The text of a range: both ids with a colon between. -/
def text (r : Range) : String := r.start.id ++ ":" ++ r.stop.id

/-- Reads two ids with a colon between, blanks around each allowed, or one id, which is a range of
one cell. -/
def parse (s : String) : Except BadAddress Range :=
  let cs := s.toList
  let first := Text.trimmed (String.ofList (cs.takeWhile (· != ':')))
  match cs.dropWhile (· != ':') with
  | [] => (Position.parse first).map single
  | _ :: rest => do
    let start ← Position.parse first
    let stop ← Position.parse (Text.trimmed (String.ofList rest))
    return ⟨start, stop⟩

end Range

end Spreadsheet
