import Spreadsheet.Number.Binary64

/-!
# Spreadsheet.Formula.Aggregate — the range functions

`SUM`, `AVERAGE`, `COUNT`, `MAX` and `MIN` of the numbers in a rectangle, in reading order.  Over no
numbers each of them is zero.
-/

namespace Spreadsheet

/-- The range functions. -/
inductive Aggregate where
  | sum | average | count | max | min
deriving DecidableEq, Repr

namespace Aggregate

/-- The name of a function, in upper case. -/
def name : Aggregate → String
  | sum => "SUM"
  | average => "AVERAGE"
  | count => "COUNT"
  | max => "MAX"
  | min => "MIN"

/-- All functions. -/
def all : List Aggregate := [sum, average, count, max, min]

/-- The function of this name. -/
def ofName? (s : String) : Option Aggregate := all.find? fun f => f.name == s

/-- The sum of numbers, added from the left to a negative zero, which is neutral. -/
def total (xs : List Float) : Float := xs.foldl (· + ·) (-0.0)

/-- The greater number; one that is not a number gives way, and of two zeros the second counts. -/
def greater (x y : Float) : Float := if x > y || y.isNaN then x else y

/-- The smaller number; one that is not a number gives way, and of two zeros the second counts. -/
def smaller (x y : Float) : Float := if x < y || y.isNaN then x else y

/-- The value of a function over numbers. -/
def apply (f : Aggregate) (xs : List Float) : Float :=
  if xs.isEmpty then 0
  else
    match f with
    | sum => total xs
    | average => total xs / Binary64.ofNat xs.length
    | count => Binary64.ofNat xs.length
    | max => xs.foldl greater (Binary64.ofMagnitude true Binary64.infinity)
    | min => xs.foldl smaller (Binary64.ofMagnitude false Binary64.infinity)

end Aggregate

end Spreadsheet
