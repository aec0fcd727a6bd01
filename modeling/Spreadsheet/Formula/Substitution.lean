import Spreadsheet.Formula.Value

/-!
# Spreadsheet.Formula.Substitution — replacing parts of a formula's text

A scan cuts a text into plain characters and the parts it has recognised.  `expand` puts the text
back together with a replacement for every part, from left to right; the first part that has none
ends it with that part's error.
-/

namespace Spreadsheet

/-- A plain character, or a part that a scan has recognised. -/
inductive Piece (α : Type) where
  | plain (c : Char)
  | part (a : α)
deriving DecidableEq, Repr

namespace Piece

/-- The text with every part replaced. -/
def expand {α : Type} {m : Type → Type} [Monad m] (replace : α → ExceptT ErrorValue m (List Char)) :
    List (Piece α) → ExceptT ErrorValue m (List Char)
  | [] => pure []
  | plain c :: ps => do
    let rest ← expand replace ps
    return c :: rest
  | part a :: ps => do
    let here ← replace a
    let rest ← expand replace ps
    return here ++ rest

end Piece

end Spreadsheet
