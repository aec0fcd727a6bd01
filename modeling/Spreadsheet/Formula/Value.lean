import Spreadsheet.Number.Shortest

/-!
# Spreadsheet.Formula.Value — what a cell shows

The value of a cell is nothing, a number, a text or an error.  Errors are values: they are shown in
the cell and passed on to the formulas that name it.
-/

namespace Spreadsheet

/-- The errors a formula can show. -/
inductive ErrorValue where
  /-- A bad address, one outside the sheet, or a circular reference. -/
  | reference
  /-- An unknown name, or something that is not arithmetic. -/
  | name
  /-- The arithmetic has no value, or the chain of references is too long. -/
  | failed
deriving DecidableEq, Repr

/-- How an error is shown. -/
def ErrorValue.text : ErrorValue → String
  | .reference => "#REF!"
  | .name => "#NAME?"
  | .failed => "#ERROR!"

/-- What a cell shows. -/
inductive Value where
  | empty
  | number (x : Float)
  | text (s : String)
  | error (e : ErrorValue)
deriving DecidableEq, Repr

namespace Value

/-- The number that a value is. -/
def number? : Value → Option Float
  | number x => some x
  | _ => none

/-- Whether a value is an error. -/
def isError : Value → Bool
  | error _ => true
  | _ => false

/-- The text shown for a value. -/
def display : Value → String
  | empty => ""
  | number x => String.ofList (numberText x)
  | text s => s
  | error e => e.text

end Value

end Spreadsheet
