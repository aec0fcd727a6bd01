import Spreadsheet.Number.Shortest

/-!
# Spreadsheet.Arithmetic.Expr — arithmetic expressions and their values

An expression is a number, a negation or one of the four operations.  Its value is computed in
doubles; every intermediate result has to be finite, and a divisor must not be zero.
-/

namespace Spreadsheet

/-- Why a text has no arithmetic value. -/
inductive ArithmeticFault where
  /-- There is nothing but blanks. -/
  | empty
  /-- A character that belongs to no token. -/
  | strayChar (c : Char)
  /-- A run of digits and points that is no number. -/
  | badNumeral (text : String)
  /-- A token, described by `text`, where it cannot stand. -/
  | strayToken (text : String)
  /-- A division by zero. -/
  | zeroDivisor
  /-- A result that is infinite or no number. -/
  | notFinite
deriving DecidableEq, Repr

/-- The wording of an arithmetic error. -/
def ArithmeticFault.message : ArithmeticFault → String
  | .empty => "empty expression"
  | .strayChar c => "unexpected character '" ++ String.singleton c ++ "'"
  | .badNumeral text => "invalid number '" ++ text ++ "'"
  | .strayToken text => "unexpected " ++ text
  | .zeroDivisor => "division by zero"
  | .notFinite => "result is not a finite number"

/-- The four operations. -/
inductive Operation where
  | add | sub | mul | div
deriving DecidableEq, Repr

namespace Operation

/-- The result of an operation; only division can refuse its operands. -/
def apply : Operation → Float → Float → Except ArithmeticFault Float
  | add, x, y => .ok (x + y)
  | sub, x, y => .ok (x - y)
  | mul, x, y => .ok (x * y)
  | div, x, y => if y == 0 then .error .zeroDivisor else .ok (x / y)

/-- Whether the operation belongs to sums, not to products. -/
def isAdditive : Operation → Bool
  | add | sub => true
  | mul | div => false

end Operation

/-- Arithmetic expressions. -/
inductive Expr where
  | number (x : Float)
  | neg (e : Expr)
  | binary (op : Operation) (lhs rhs : Expr)
deriving DecidableEq, Repr

namespace Expr

/-- A result that is finite, or the error that it is not. -/
def finite (x : Float) : Except ArithmeticFault Float :=
  if x.isFinite then .ok x else .error .notFinite

/-- The value of an expression: operands first, from left to right. -/
def evaluate : Expr → Except ArithmeticFault Float
  | number x => finite x
  | neg e => do finite (-(← e.evaluate))
  | binary op lhs rhs => do
    let x ← lhs.evaluate
    let y ← rhs.evaluate
    finite (← op.apply x y)

end Expr

end Spreadsheet
