import Spreadsheet.Arithmetic.Token

/-!
# Spreadsheet.Arithmetic.Parser — from tokens to expressions

The grammar is the usual one: a sum is made of terms, a term of signed operands, an operand is a
number or a sum in parentheses; `+` and `-`, `*` and `/` associate to the left, and a plus sign
leaves no trace.

The parser reads one token at a time.  What is still open to the left inside one pair of
parentheses is a `Level`: a left operand that waits for the rest of a sum, one that waits for the
rest of a product, and the minus signs before the next operand.  The parser either expects an
operand or has just completed one, and keeps the levels of the parentheses around.
-/

namespace Spreadsheet

namespace Arithmetic

/-- A left operand with its operator. -/
abbrev Pending := Option (Expr × Operation)

/-- Completes a pending operation with its right operand. -/
def Pending.complete : Pending → Expr → Expr
  | none, e => e
  | some (lhs, op), e => .binary op lhs e

/-- What is open inside one pair of parentheses, left of the next operand. -/
structure Level where
  sum : Pending
  product : Pending
  negations : Nat
deriving DecidableEq, Repr

namespace Level

/-- Nothing is open. -/
def start : Level := ⟨none, none, 0⟩

/-- An expression under so many minus signs. -/
def negated : Nat → Expr → Expr
  | 0, e => e
  | n + 1, e => .neg (negated n e)

/-- The term that ends with this operand. -/
def term (l : Level) (e : Expr) : Expr := l.product.complete (negated l.negations e)

end Level

/-- Where the parser stands. -/
inductive State where
  /-- An operand is expected. -/
  | before (level : Level) (outer : List Level)
  /-- The term has just been completed; it may go on or be the last of its sum. -/
  | after (term : Expr) (sum : Pending) (outer : List Level)
deriving DecidableEq, Repr

/-- The error that this token, or the end of the text, cannot stand here. -/
def unexpected : Option Token → ArithmeticFault
  | some t => .strayToken t.describe
  | none => .strayToken "end of input"

namespace State

/-- The parser before the first token. -/
def start : State := before .start []

/-- An operand ends on this level. -/
def operand (level : Level) (e : Expr) (outer : List Level) : State :=
  after (level.term e) level.sum outer

/-- Reads one token. -/
def step : State → Token → Except ArithmeticFault State
  | before level outer, .number x => .ok (operand level (.number x) outer)
  | before level outer, .opening => .ok (before .start (level :: outer))
  | before level outer, .operator .add => .ok (before level outer)
  | before level outer, .operator .sub =>
    .ok (before { level with negations := level.negations + 1 } outer)
  | after term sum outer, .operator op =>
    if op.isAdditive then .ok (before ⟨some (sum.complete term, op), none, 0⟩ outer)
    else .ok (before ⟨sum, some (term, op), 0⟩ outer)
  | after term sum (level :: outer), .closing => .ok (operand level (sum.complete term) outer)
  | _, t => .error (unexpected (some t))

/-- The expression that ends here. -/
def finish : State → Except ArithmeticFault Expr
  | after term sum [] => .ok (sum.complete term)
  | _ => .error (unexpected none)

end State

/-- The expression that all the tokens form. -/
def parseTokens (ts : List Token) : Except ArithmeticFault Expr :=
  if ts.isEmpty then .error .empty else ts.foldlM State.step State.start >>= State.finish

/-- The expression that a text is. -/
def parse (cs : List Char) : Except ArithmeticFault Expr := Token.scan cs >>= parseTokens

/-- The value of an arithmetic text. -/
def evaluate (cs : List Char) : Except ArithmeticFault Float := parse cs >>= Expr.evaluate

end Arithmetic

end Spreadsheet
