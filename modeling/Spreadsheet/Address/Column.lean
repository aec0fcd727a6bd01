import Spreadsheet.Word

/-!
# Spreadsheet.Address.Column — column letters

Columns are numbered from zero and named `A`, `B`, …, `Z`, `AA`, …: bijective base 26, where the
letters count from one and there is no zero.  `letters` writes a name, `index?` reads one in either
case and refuses a name whose value is no 64-bit word.
-/

namespace Spreadsheet.Column

/-- The letter of a digit from 0 to 25. -/
def letter (d : Nat) : Char := Char.ofNat (65 + d)

/-- The letters of a column number, most significant first. -/
def letters (col : Nat) : List Char :=
  if col < 26 then [letter col] else letters (col / 26 - 1) ++ [letter (col % 26)]
termination_by col

/-- The name of a column. -/
def name (col : Nat) : String := String.ofList (letters col)

/-- What a letter counts for: 1 for `A` or `a`, 26 for `Z` or `z`. -/
def rank (c : Char) : Nat := c.toUpper.toNat - 64

/-- One more letter on the right of a name read so far. -/
def extend (n : Nat) (c : Char) : Option Nat :=
  if c.isAlpha then
    let m := n * 26 + rank c
    if m < Word.size then some m else none
  else none

/-- The column that letters name, none if there is no letter, another character, or too large a
value. -/
def index? (cs : List Char) : Option Nat :=
  if cs.isEmpty then none else (cs.foldlM extend 0).map (· - 1)

/-- `index?` on strings. -/
def ofName? (s : String) : Option Nat := index? s.toList

end Spreadsheet.Column
