import Spreadsheet.Formula.Aggregate
import Spreadsheet.Formula.Reference
import Spreadsheet.Text.Blank

/-!
# Spreadsheet.Formula.RangeCall — calls of range functions in a formula

A call is a function's name, an opening parenthesis right behind it, two references with a colon
between them and a closing parenthesis; blanks may stand around the references.  A call begins at
the start of the text or behind a character that is no letter `A` to `Z`, no digit `0` to `9` and no
point, and that does not belong to the call before.
-/

namespace Spreadsheet

/-- A range function with the texts of the two corners. -/
structure RangeCall where
  function : Aggregate
  first : Reference
  last : Reference
deriving DecidableEq, Repr

namespace RangeCall

/-- A reference at the start of a text, and what follows it. -/
def readReference? (cs : List Char) : Option (Reference × List Char) :=
  let letters := cs.takeWhile Char.isUpper
  let rest := cs.dropWhile Char.isUpper
  let digits := rest.takeWhile Text.isDecimalDigit
  if letters.isEmpty || digits.isEmpty then none
  else some (⟨letters, digits⟩, rest.dropWhile Text.isDecimalDigit)

/-- The text behind a character that has to come next. -/
def expect? (c : Char) : List Char → Option (List Char)
  | [] => none
  | d :: cs => if d = c then some cs else none

/-- A call at the start of a text. -/
def read? (cs : List Char) : Option RangeCall := do
  let function ← Aggregate.ofName? (String.ofList (cs.takeWhile Char.isUpper))
  let rest ← expect? '(' (cs.dropWhile Char.isUpper)
  let (first, rest) ← readReference? (Text.trimStart rest)
  let rest ← expect? ':' (Text.trimStart rest)
  let (last, rest) ← readReference? (Text.trimStart rest)
  let _ ← expect? ')' (Text.trimStart rest)
  return ⟨function, first, last⟩

/-- Whether a call may begin behind this character. -/
def separates (c : Char) : Bool := !(c.isUpper || c.isDigit || c == '.')

/-- The pieces of a text.  Its first `skip` characters belong to a call that has been read already,
and `mayBegin` tells whether a call may begin behind them.  A call ends with its only closing
parenthesis. -/
def splitFrom (skip : Nat) (mayBegin : Bool) : List Char → List (Piece RangeCall)
  | [] => []
  | c :: cs =>
    match skip with
    | k + 1 => splitFrom k mayBegin cs
    | 0 =>
      match if mayBegin then read? (c :: cs) else none with
      | some call => .part call :: splitFrom ((cs.takeWhile (· != ')')).length + 1) false cs
      | none => .plain c :: splitFrom 0 (separates c) cs

/-- The calls of a text and the characters between them. -/
def split (cs : List Char) : List (Piece RangeCall) := splitFrom 0 true cs

end RangeCall

end Spreadsheet
