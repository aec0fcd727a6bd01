import Spreadsheet.Formula.Substitution
import Spreadsheet.Text.DecimalDigit

/-!
# Spreadsheet.Formula.Reference — cell references in a formula

A reference is a run of letters `A` to `Z` followed by a run of decimal digits, both as long as they
can be.  `split` cuts a text into references and plain characters.
-/

namespace Spreadsheet

/-- The text of a cell reference. -/
structure Reference where
  letters : List Char
  digits : List Char
deriving DecidableEq, Repr

namespace Reference

/-- The characters of a reference. -/
def text (r : Reference) : List Char := r.letters ++ r.digits

/-- The pieces that letters and then digits make, both of them last first. -/
def piecesOf (letters digits : List Char) : List (Piece Reference) :=
  if digits.isEmpty then letters.reverse.map .plain
  else [.part ⟨letters.reverse, digits.reverse⟩]

/-- The pieces of a text of which the letters and then the digits of a possible reference, both of
them last first, have been read already. -/
def splitFrom (letters digits : List Char) : List Char → List (Piece Reference)
  | [] => piecesOf letters digits
  | c :: cs =>
    if !letters.isEmpty && Text.isDecimalDigit c then splitFrom letters (c :: digits) cs
    else if c.isUpper && digits.isEmpty then splitFrom (c :: letters) [] cs
    else if c.isUpper then piecesOf letters digits ++ splitFrom [c] [] cs
    else piecesOf letters digits ++ .plain c :: splitFrom [] [] cs

/-- The references of a text and the characters between them. -/
def split (cs : List Char) : List (Piece Reference) := splitFrom [] [] cs

end Reference

end Spreadsheet
