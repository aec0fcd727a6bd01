import Spreadsheet.Arithmetic.Expr
import Spreadsheet.Text.Blank

/-!
# Spreadsheet.Arithmetic.Token — the tokens of an arithmetic text

A text is cut into numbers, operators and parentheses, with blanks allowed between them.  A number
is a maximal run of digits and points and has to be a decimal.
-/

namespace Spreadsheet

/-- The tokens of arithmetic. -/
inductive Token where
  | number (x : Float)
  | operator (op : Operation)
  | opening
  | closing
deriving DecidableEq, Repr

namespace Token

/-- How a token is named in messages. -/
def describe : Token → String
  | number x => "number " ++ String.ofList (numberText x)
  | operator .add => "'+'"
  | operator .sub => "'-'"
  | operator .mul => "'*'"
  | operator .div => "'/'"
  | opening => "'('"
  | closing => "')'"

/-- The token that a character is by itself. -/
def symbol? : Char → Option Token
  | '+' => some (operator .add)
  | '-' => some (operator .sub)
  | '*' => some (operator .mul)
  | '/' => some (operator .div)
  | '(' => some opening
  | ')' => some closing
  | _ => none

/-- The characters that numbers are made of. -/
def isNumeral (c : Char) : Bool := c.isDigit || c == '.'

/-- The token of a complete run of numerals, if there is a run. -/
def ofRun : List Char → Except ArithmeticFault (List Token)
  | [] => .ok []
  | c :: cs =>
    match readNumber? (c :: cs) with
    | some x => .ok [number x]
    | none => .error (.badNumeral (String.ofList (c :: cs)))

/-- The token of a character that is no numeral; blanks have none. -/
def ofChar (c : Char) : Except ArithmeticFault (List Token) :=
  if Text.isBlank c then .ok []
  else
    match symbol? c with
    | some t => .ok [t]
    | none => .error (.strayChar c)

/-- The tokens of a text of which the numerals `run`, last first, have been read already. -/
def scanFrom (run : List Char) : List Char → Except ArithmeticFault (List Token)
  | [] => ofRun run.reverse
  | c :: cs =>
    if isNumeral c then scanFrom (c :: run) cs
    else do
      let before ← ofRun run.reverse
      let here ← ofChar c
      let after ← scanFrom [] cs
      return before ++ here ++ after

/-- The tokens of a text, or the first thing that is none. -/
def scan (cs : List Char) : Except ArithmeticFault (List Token) := scanFrom [] cs

end Token

end Spreadsheet
