import Spreadsheet.Formula.Evaluation
import Spreadsheet.Proofs.Arithmetic.Phrase

/-!
# Spreadsheet.Proofs.Formula.Language — formulas and what they mean

The body of a formula is a phrase whose operands are numerals, cell names and calls of range
functions.  `meaning` is its value by the structure of the phrase, for given values of the cells:
first every call is replaced by the aggregate of its rectangle, then every name by the value of its
cell, both from left to right; then a text makes the formula an unknown name, and what is left is a
syntax tree over numbers, whose value is rounded.
-/

namespace Spreadsheet

namespace Formula

open Arithmetic

/-! ### Syntax -/

/-- A run of digits and points that reads as a number. -/
structure Numeral where
  text : List Char
  value : Float
  filled : text ≠ []
  isNumeral : ∀ c ∈ text, Token.isNumeral c = true
  reads : readNumber? text = some value

/-- The name of a cell: letters in either case, then digits. -/
structure CellName where
  letters : List Char
  digits : List Char
  lettered : letters ≠ []
  numbered : digits ≠ []
  isAlpha : ∀ c ∈ letters, c.isAlpha = true
  isDigit : ∀ c ∈ digits, c.isDigit = true

/-- The characters of a cell name. -/
def CellName.text (n : CellName) : List Char := n.letters ++ n.digits

/-- The cell that a name stands for. -/
def CellName.position? (n : CellName) : Option Position := Position.ofIdText? n.text

/-- A call of a range function: its name in letters of either case, right behind it the parenthesis,
and two cell names with a colon between them, blanks around each allowed. -/
structure Call where
  function : Aggregate
  name : List Char
  first : CellName
  last : CellName
  gap₁ : Blanks
  gap₂ : Blanks
  gap₃ : Blanks
  gap₄ : Blanks
  named : name.map Char.toUpper = function.name.toList

/-- The characters of a call. -/
def Call.text (c : Call) : List Char :=
  c.name ++ '(' :: (c.gap₁.1 ++ (c.first.text ++ (c.gap₂.1 ++ ':' ::
    (c.gap₃.1 ++ (c.last.text ++ (c.gap₄.1 ++ [')']))))))

/-- The operands of formulas. -/
inductive Operand where
  | numeral (n : Numeral)
  | name (n : CellName)
  | call (c : Call)

/-- The characters of an operand. -/
def Operand.text : Operand → List Char
  | numeral n => n.text
  | name n => n.text
  | call c => c.text

/-- What may stand behind the `=` of a formula. -/
abbrev Body := Phrase Operand .expression

/-- The characters of a formula's body. -/
def bodyText (s : Body) : List Char := s.text Operand.text

/-! ### Meaning -/

/-- The operands when all calls are replaced. -/
inductive Reduced where
  | numeral (n : Numeral)
  | name (n : CellName)
  | number (x : Float)

/-- The operands when all calls and all cell names are replaced. -/
inductive Settled where
  | numeral (n : Numeral)
  | number (x : Float)
  | text (s : String)

section Meaning

variable (dims : Dimensions) (valueOf : Position → Value)

/-- The aggregate of the numbers in the rectangle between two corners. -/
def aggregateBetween (f : Aggregate) : Option Position → Option Position → Except ErrorValue Float
  | some first, some last =>
    if dims.contains first && dims.contains last then
      .ok (f.apply ((Range.mk first last).rect.positions.filterMap fun q => (valueOf q).number?))
    else .error .reference
  | _, _ => .error .name

/-- The operand that a cell of this value is; a blank cell counts as zero. -/
def Settled.ofValue : Value → Except ErrorValue Settled
  | .empty => .ok (number 0)
  | .number x => .ok (number x)
  | .text s => .ok (text s)
  | .error e => .error e

/-- The operand that a cell is. -/
def settledAt : Option Position → Except ErrorValue Settled
  | some p => if dims.contains p then Settled.ofValue (valueOf p) else .error .reference
  | none => .error .reference

/-- Replaces a call by its aggregate. -/
def Operand.reduce : Operand → Except ErrorValue Reduced
  | numeral n => .ok (.numeral n)
  | name n => .ok (.name n)
  | call c => .number <$> aggregateBetween dims valueOf c.function c.first.position? c.last.position?

/-- Replaces a cell name by the value of its cell. -/
def Reduced.settle : Reduced → Except ErrorValue Settled
  | numeral n => .ok (.numeral n)
  | name n => settledAt dims valueOf n.position?
  | number x => .ok (.number x)

/-- The number that an operand is; a text is none. -/
def Settled.amount : Settled → Except ErrorValue Float
  | numeral n => .ok n.value
  | number x => .ok x
  | text _ => .error .name

/-- A formula's body with calls and names replaced, from left to right. -/
def settled (s : Body) : Except ErrorValue (Phrase Settled .expression) := do
  let reduced ← s.mapM (Operand.reduce dims valueOf)
  reduced.mapM (Reduced.settle dims valueOf)

/-- The value of a syntax tree, rounded. -/
def treeValue (e : Expr) : Except ErrorValue Float :=
  match e.evaluate with
  | .ok x => .ok (rounded x)
  | .error _ => .error .failed

/-- The value of a formula's body. -/
def meaning (s : Body) : Except ErrorValue Float := do
  let settled ← settled dims valueOf s
  let numbers ← settled.mapM Settled.amount
  treeValue (numbers.expr Expr.number)

end Meaning

end Formula

end Spreadsheet
