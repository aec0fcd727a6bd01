import Spreadsheet.Address.Position

/-!
# Spreadsheet.Dimensions — the size of the sheet

A sheet has at least one row and one column.  Its size only ever grows.
-/

namespace Spreadsheet

/-- Number of rows and columns, each at least one. -/
structure Dimensions where
  rows : Nat
  cols : Nat
  rows_pos : 0 < rows := by omega
  cols_pos : 0 < cols := by omega
deriving DecidableEq, Repr

namespace Dimensions

/-- The size of a new sheet when nothing else is said. -/
def standard : Dimensions := ⟨100, 26, by decide, by decide⟩

/-- The given size, but at least one row and one column. -/
def atLeastOne (rows cols : Nat) : Dimensions := ⟨max rows 1, max cols 1, by omega, by omega⟩

/-- Whether a position lies on the sheet. -/
def contains (d : Dimensions) (p : Position) : Bool := p.row < d.rows && p.col < d.cols

/-- The position on the sheet nearest to `p`. -/
def nearest (d : Dimensions) (p : Position) : Position :=
  ⟨min p.row (d.rows - 1), min p.col (d.cols - 1)⟩

/-- The last position of the last row. -/
def last (d : Dimensions) : Position := ⟨d.rows - 1, d.cols - 1⟩

/-- More rows, up to the largest number there is. -/
def moreRows (d : Dimensions) (n : Nat) : Dimensions :=
  { d with
    rows := Word.addSaturating d.rows n
    rows_pos := by have := d.rows_pos; simp only [Word.addSaturating, Word.size]; omega }

/-- More columns, up to the largest number there is. -/
def moreCols (d : Dimensions) (n : Nat) : Dimensions :=
  { d with
    cols := Word.addSaturating d.cols n
    cols_pos := by have := d.cols_pos; simp only [Word.addSaturating, Word.size]; omega }

/-- Grows in each direction, where needed, so that `p` lies on the sheet. -/
def including (d : Dimensions) (p : Position) : Dimensions where
  rows := max d.rows (Word.add p.row 1)
  cols := max d.cols (Word.add p.col 1)
  rows_pos := by have := d.rows_pos; omega
  cols_pos := by have := d.cols_pos; omega

/-- Grows so that `p` lies on the sheet, if the size that takes is in words. -/
def including? (d : Dimensions) (p : Position) : Option Dimensions :=
  if (Word.add? p.row 1).isSome && (Word.add? p.col 1).isSome then some (d.including p) else none

theorem contains_iff {d : Dimensions} {p : Position} :
    d.contains p = true ↔ p.row < d.rows ∧ p.col < d.cols := by
  simp [contains]

theorem contains_nearest (d : Dimensions) (p : Position) : d.contains (d.nearest p) = true := by
  have := d.rows_pos
  have := d.cols_pos
  simp only [contains_iff, nearest]
  omega

theorem nearest_eq_self {d : Dimensions} {p : Position} (h : d.contains p = true) : d.nearest p = p := by
  rw [contains_iff] at h
  obtain ⟨row, col⟩ := p
  simp only [nearest, Position.mk.injEq]
  simp only at h
  omega

theorem contains_last (d : Dimensions) : d.contains d.last = true := by
  have := d.rows_pos
  have := d.cols_pos
  simp only [contains_iff, last]
  omega

end Dimensions

end Spreadsheet
