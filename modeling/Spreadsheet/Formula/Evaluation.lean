import Spreadsheet.Arithmetic.Parser
import Spreadsheet.Dimensions
import Spreadsheet.Formula.RangeCall
import Spreadsheet.Grid
import Spreadsheet.Text.UpperCase

/-!
# Spreadsheet.Formula.Evaluation — the values of cells

A cell whose text begins with `=` is a formula.  The rest of its text is put in upper case and
reduced in two passes: every call of a range function is replaced by its aggregate, then every cell
reference by the value of that cell.  What is left has to be plain arithmetic; its value is rounded
to four places.  Any other text is a number, if its trimmed text is a finite one, and otherwise
itself.

Nothing is remembered between evaluations.  The trail holds the formula cells that are being
evaluated, outermost first: a cell that is on the trail already depends on itself, and a trail may
hold no more than `trailLimit` cells.
-/

namespace Spreadsheet

/-- The formula cells that are being evaluated, outermost first. -/
abbrev Trail := List Position

/-- A computation that keeps the trail. -/
abbrev Evaluation := StateM Trail

namespace Formula

/-- The longest trail. -/
def trailLimit : Nat := 256

/-- A number as it is written into a formula; a negative one is put in parentheses, so that its sign
cannot join an operator before it. -/
def spliced (x : Float) : List Char :=
  if x < 0 then '(' :: (numberText x ++ [')']) else numberText x

/-- The factor for four places. -/
def placesFactor : Float := 10000

/-- A number rounded to four places, if that can be done in doubles.  Zero has no sign. -/
def rounded (x : Float) : Float :=
  let r := Binary64.roundHalfAway (x * placesFactor) / placesFactor
  if !r.isFinite then x else if r == 0 then 0 else r

/-- The value of a text that is no formula. -/
def literal (raw : String) : Value :=
  match readNumber? (Text.trim raw.toList) with
  | some x => if x.isFinite then .number x else .text raw
  | none => .text raw

/-- The characters that are left in a formula when all is replaced. -/
def isArithmetic (c : Char) : Bool :=
  c.isDigit || Text.isBlank c || c == '.' || c == '+' || c == '-' || c == '*' || c == '/'
    || c == '(' || c == ')'

section Passes

variable {m : Type → Type} [Monad m] (dims : Dimensions) (cellsIn : Rect → List Position)
  (valueAt : Position → m Value)

/-- The numbers among the values of some cells. -/
def numbers : List Position → m (List Float)
  | [] => pure []
  | p :: ps => do
    let v ← valueAt p
    let rest ← numbers ps
    return v.number?.toList ++ rest

/-- What a call of a range function is replaced by.  Blank cells have no number, so only the others
in its rectangle are evaluated. -/
def aggregateText (call : RangeCall) : ExceptT ErrorValue m (List Char) :=
  match Position.ofIdText? call.first.text, Position.ofIdText? call.last.text with
  | some first, some last =>
    if dims.contains first && dims.contains last then do
      let xs ← ExceptT.lift (numbers valueAt (cellsIn (Range.mk first last).rect))
      return spliced (call.function.apply xs)
    else throw .reference
  | _, _ => throw .name

/-- What a reference to a cell with this value is replaced by. -/
def valueText : Value → Except ErrorValue (List Char)
  | .empty => .ok ['0']
  | .number x => .ok (spliced x)
  | .text s => .ok s.toList
  | .error e => .error e

/-- What a reference is replaced by. -/
def referenceText (r : Reference) : ExceptT ErrorValue m (List Char) :=
  match Position.ofIdText? r.text with
  | some p =>
    if dims.contains p then do
      let v ← ExceptT.lift (valueAt p)
      ExceptT.mk (pure (valueText v))
    else throw .reference
  | none => throw .reference

/-- The value of what is left when all is replaced. -/
def residualValue (cs : List Char) : Except ErrorValue Float :=
  if cs.all isArithmetic then
    match Arithmetic.evaluate cs with
    | .ok x => .ok (rounded x)
    | .error _ => .error .failed
  else .error .name

/-- The value of a formula's text behind the `=`. -/
def bodyValue (body : List Char) : ExceptT ErrorValue m Float := do
  let aggregated ←
    Piece.expand (aggregateText dims cellsIn valueAt) (RangeCall.split (Text.upperCase body))
  let residual ← Piece.expand (referenceText dims valueAt) (Reference.split aggregated)
  ExceptT.mk (pure (residualValue residual))

end Passes

/-- Runs a computation with one more cell at the end of the trail. -/
def onTrail {α : Type} (p : Position) (act : Evaluation α) : Evaluation α := do
  modify (· ++ [p])
  let a ← act
  modify List.dropLast
  return a

/-- The value that the result of a formula is. -/
def resultValue : Except ErrorValue Float → Value
  | .ok x => .number x
  | .error e => .error e

/-- The value of the cell at `p`, when `formula` evaluates the text behind the `=`. -/
def valueWith (grid : Grid) (formula : List Char → Evaluation Value) (p : Position) :
    Evaluation Value :=
  match grid.get? p with
  | none => pure .empty
  | some raw =>
    match raw.toList with
    | '=' :: body => do
      if p ∈ (← get) then return .error .reference
      formula body
    | _ => pure (literal raw)

/-- The value of a cell, when the trail can take `room` more cells. -/
def valueWithin (grid : Grid) (dims : Dimensions) : Nat → Position → Evaluation Value
  | 0, p => valueWith grid (fun _ => pure (.error .failed)) p
  | room + 1, p =>
    valueWith grid (fun body =>
      onTrail p (resultValue <$>
        (bodyValue dims grid.positionsIn (valueWithin grid dims room) body).run)) p

/-- The value of a cell, on the trail that is there. -/
def evaluate (grid : Grid) (dims : Dimensions) (p : Position) : Evaluation Value := do
  valueWithin grid dims (trailLimit - (← get).length) p

/-- The value of a cell by itself. -/
def valueAt (grid : Grid) (dims : Dimensions) (p : Position) : Value :=
  (Id.run ((evaluate grid dims p).run [])).1

end Formula

end Spreadsheet
