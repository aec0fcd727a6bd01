import Spreadsheet.Address.Column

/-!
# Spreadsheet.Address.Position — positions of cells and their ids

A position is a row and a column, both from zero.  Its id is the column's letters followed by the
row number counted from one: `(0, 0)` is `A1`.  Positions are ordered by row, then by column.
-/

namespace Spreadsheet

/-- Where a cell is: row and column, both counted from zero. -/
structure Position where
  row : Nat
  col : Nat
deriving DecidableEq, Repr, Inhabited

/-- The error that a text is no cell id. -/
structure BadAddress where
  text : String
deriving DecidableEq, Repr

/-- The wording of the error. -/
def BadAddress.message (e : BadAddress) : String := "Invalid cell reference: " ++ e.text

namespace Position

/-- Reading order: by row, then by column. -/
def Before (p q : Position) : Prop := p.row < q.row ∨ p.row = q.row ∧ p.col < q.col

instance : LT Position := ⟨Before⟩

instance (p q : Position) : Decidable (p < q) :=
  inferInstanceAs (Decidable (p.row < q.row ∨ p.row = q.row ∧ p.col < q.col))

theorem lt_iff {p q : Position} : p < q ↔ p.row < q.row ∨ p.row = q.row ∧ p.col < q.col := Iff.rfl

theorem lt_trans {p q r : Position} (h : p < q) (h' : q < r) : p < r := by
  rw [lt_iff] at *
  omega

theorem not_lt_self (p : Position) : ¬ p < p := by
  rw [lt_iff]
  omega

theorem lt_of_not_lt {p q : Position} (h : ¬ p < q) (hne : p ≠ q) : q < p := by
  rw [lt_iff] at *
  obtain ⟨r, c⟩ := p
  obtain ⟨r', c'⟩ := q
  simp only [ne_eq, mk.injEq, not_and] at hne
  simp only at h ⊢
  omega

/-- The position moved by signed amounts, unless a coordinate leaves its range. -/
def offset? (p : Position) (rows cols : Int) : Option Position := do
  let row ← Word.offset? p.row rows
  let col ← Word.offset? p.col cols
  return ⟨row, col⟩

/-- The characters of a position's id. -/
def idText (p : Position) : List Char :=
  Column.letters p.col ++ Nat.toDigits 10 (Word.add p.row 1)

/-- A position's id, such as `B12`. -/
def id (p : Position) : String := String.ofList p.idText

/-- The row that digits name, counting from one; row zero and rows that are no 64-bit word have no
number. -/
def rowOfDigits? (ds : List Char) : Option Nat :=
  if ds.isEmpty || !ds.all Char.isDigit then none
  else
    let n := Nat.ofDigitChars 10 ds 0
    if 0 < n ∧ n < Word.size then some (n - 1) else none

/-- The position with this id: letters in either case, then digits, which may have leading
zeros. -/
def ofIdText? (cs : List Char) : Option Position := do
  let col ← Column.index? (cs.takeWhile Char.isAlpha)
  let row ← rowOfDigits? (cs.dropWhile Char.isAlpha)
  return ⟨row, col⟩

/-- Reads a cell id. -/
def parse (s : String) : Except BadAddress Position :=
  match ofIdText? s.toList with
  | some p => .ok p
  | none => .error ⟨s⟩

end Position

end Spreadsheet
